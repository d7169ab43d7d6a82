import Bracket.Double.Basic
import Bracket.Tree.Pattern

/-!
# Programs with scoped resources

The trees of a small imperative language.  Beside the usual statements it has
the scoped statement, which acquires resources in order, binds what they yield,
runs a body and releases the resources in the opposite order on every way out.

Two fields are hints that no meaning depends on: whether a declaration may be
assigned again, and whether a member access by a literal name was spelled with
brackets.
-/

namespace Bracket

/-- A literal value. -/
inductive Literal where
  | null
  | bool (value : Bool)
  | number (value : Double)
  | string (value : String)
  deriving DecidableEq, Repr

inductive BinaryOp where
  | add | sub | mul | div | mod
  | eq | ne | lt | le | gt | ge
  | and | or
  | concat
  deriving DecidableEq, Repr

inductive UnaryOp where
  | neg | not
  deriving DecidableEq, Repr

mutual

/-- An expression. -/
inductive Expr where
  | literal (value : Literal)
  | ident (name : String)
  | binary (left : Expr) (op : BinaryOp) (right : Expr)
  | unary (op : UnaryOp) (operand : Expr)
  | call (callee : Expr) (args : List Expr)
  | methodCall (receiver : Expr) (method : String) (args : List Expr)
  | member (object property : Expr) (computed : Bool)
  | array (elements : List Expr)
  | object (pairs : List (String × Expr))
  | function (f : Func)
  | conditional (test consequent alternate : Expr)
  | assign (target value : Expr)
  | await (operand : Expr)

/-- A function; the name of an anonymous one is empty. -/
structure Func where
  name : String
  params : List String
  body : List Stmt
  isAsync : Bool

/-- A statement. -/
inductive Stmt where
  | expr (e : Expr)
  | declare (name : String) (init : Option Expr) (mutable : Bool)
  | destructure (pattern : Pattern) (init : Expr)
  | block (body : List Stmt)
  | ifElse (test : Expr) (consequent : Stmt) (alternate : Option Stmt)
  | whileLoop (test : Expr) (body : Stmt)
  | forLoop (init : Option Stmt) (test update : Option Expr) (body : Stmt)
  | forEach (name : String) (iterable : Expr) (body : Stmt)
  | ret (value : Option Expr)
  | breakLoop
  | continueLoop
  | throw (value : Expr)
  | tryCatch (body : Stmt) (catchParam : Option String) (catchBody finallyBody : Option Stmt)
  | function (f : Func)
  | holding (s : Scoped)

/-- One resource of a scoped statement: how to acquire it, what its entry value
is bound to, and how many values its entry is known to yield. -/
structure Item where
  acquire : Expr
  binding : Option Pattern
  entryArity : Option UInt64

/-- A statement that holds resources while its body runs. -/
structure Scoped where
  items : List Item
  body : List Stmt
  isAsync : Bool

end

/-- A program is a list of statements. -/
structure Program where
  body : List Stmt

/-! ## Construction -/

namespace Expr

def null : Expr := .literal .null

def bool (value : Bool) : Expr := .literal (.bool value)

def number (value : Double) : Expr := .literal (.number value)

def string (value : String) : Expr := .literal (.string value)

def negate (e : Expr) : Expr := .unary .not e

/-- Access to a member by its name. -/
def field (object : Expr) (name : String) : Expr := .member object (string name) false

/-- Access to a member by a computed position. -/
def index (object position : Expr) : Expr := .member object position true

end Expr

namespace Func

/-- A function without a name. -/
def anonymous (params : List String) (body : List Stmt) : Func := ⟨"", params, body, false⟩

def intoAsync (f : Func) : Func := ⟨f.name, f.params, f.body, true⟩

end Func

namespace Stmt

/-- A declaration that may be assigned again. -/
def letVar (name : String) (init : Option Expr) : Stmt := .declare name init true

/-- A declaration that keeps its value. -/
def letConst (name : String) (init : Expr) : Stmt := .declare name (some init) false

/-- A statement list in the place of one statement. -/
def ofList : List Stmt → Stmt
  | [s] => s
  | body => .block body

end Stmt

namespace Item

/-- A resource whose entry value is not used. -/
def new (acquire : Expr) : Item := ⟨acquire, none, none⟩

def bind (item : Item) (pattern : Pattern) : Item :=
  ⟨item.acquire, some pattern, item.entryArity⟩

def withEntryArity (item : Item) (arity : UInt64) : Item :=
  ⟨item.acquire, item.binding, some arity⟩

end Item

namespace Program

/-- The program with one more statement at its end. -/
def append (p : Program) (s : Stmt) : Program := ⟨p.body ++ [s]⟩

/-- The program whose only statement holds the given resources around the
whole body. -/
def wrapScoped (p : Program) (items : List Item) (isAsync : Bool) : Program :=
  ⟨[.holding ⟨items, p.body, isAsync⟩]⟩

/-- The program whose only statement is a function with the whole body. -/
def wrapFunction (p : Program) (name : String) (isAsync : Bool) : Program :=
  ⟨[.function ⟨name, [], p.body, isAsync⟩]⟩

end Program

end Bracket
