import Bracket.Json.Basic
import Bracket.Tree.Basic

/-!
# Trees as JSON

A node is an object with one field, named for its kind, whose value holds the
parts of the node; a kind without parts is its name alone.  Functions,
resources, scoped statements and programs are plain objects.  Every part is
written, `null` for one that is absent, except that a resource without a known
number of entry values has no field for it.

How a number literal is written is a parameter of the encoding.
-/

namespace Bracket

/-- A node with parts. -/
def Json.node (kind : String) (parts : Json) : Json := .object [(kind, parts)]

/-- The name of an operator. -/
def BinaryOp.tag : BinaryOp → String
  | .add => "Add"
  | .sub => "Sub"
  | .mul => "Mul"
  | .div => "Div"
  | .mod => "Mod"
  | .eq => "Eq"
  | .ne => "Ne"
  | .lt => "Lt"
  | .le => "Le"
  | .gt => "Gt"
  | .ge => "Ge"
  | .and => "And"
  | .or => "Or"
  | .concat => "Concat"

/-- The name of an operator. -/
def UnaryOp.tag : UnaryOp → String
  | .neg => "Neg"
  | .not => "Not"

/-- A literal as JSON. -/
def Literal.encode (number : Double → Json) : Literal → Json
  | .null => .string "Null"
  | .bool b => .node "Bool" (.bool b)
  | .number d => .node "Number" (number d)
  | .string s => .node "String" (.string s)

mutual

/-- A pattern as JSON. -/
def Pattern.encode : Pattern → Json
  | .name n => .node "Name" (.string n)
  | .tuple slots => .node "Tuple" (.array (Pattern.encodeList slots))

def Pattern.encodeList : List Pattern → List Json
  | [] => []
  | p :: ps => p.encode :: Pattern.encodeList ps

end

mutual

/-- An expression as JSON. -/
def Expr.encode (number : Double → Json) : Expr → Json
  | .literal l => .node "Literal" (l.encode number)
  | .ident n => .node "Ident" (.string n)
  | .binary l op r => .node "Binary" (.object
      [("left", l.encode number), ("op", .string op.tag), ("right", r.encode number)])
  | .unary op e => .node "Unary" (.object
      [("op", .string op.tag), ("expr", e.encode number)])
  | .call f args => .node "Call" (.object
      [("callee", f.encode number), ("args", .array (Expr.encodeList number args))])
  | .methodCall r m args => .node "MethodCall" (.object
      [("receiver", r.encode number), ("method", .string m),
        ("args", .array (Expr.encodeList number args))])
  | .member o p c => .node "Member" (.object
      [("object", o.encode number), ("property", p.encode number), ("computed", .bool c)])
  | .array es => .node "Array" (.array (Expr.encodeList number es))
  | .object ps => .node "Object" (.array (Expr.encodePairs number ps))
  | .function f => .node "Function" (f.encode number)
  | .conditional t c a => .node "Conditional" (.object
      [("test", t.encode number), ("consequent", c.encode number),
        ("alternate", a.encode number)])
  | .assign t v => .node "Assign" (.object
      [("target", t.encode number), ("value", v.encode number)])
  | .await e => .node "Await" (e.encode number)

def Expr.encodeList (number : Double → Json) : List Expr → List Json
  | [] => []
  | e :: es => e.encode number :: Expr.encodeList number es

def Expr.encodeOption (number : Double → Json) : Option Expr → Json
  | none => .null
  | some e => e.encode number

def Expr.encodePairs (number : Double → Json) : List (String × Expr) → List Json
  | [] => []
  | (k, e) :: ps => .array [.string k, e.encode number] :: Expr.encodePairs number ps

/-- A function as JSON. -/
def Func.encode (number : Double → Json) : Func → Json
  | ⟨name, params, body, isAsync⟩ => .object
      [("name", .string name), ("params", .ofTexts params),
        ("body", .array (Stmt.encodeList number body)), ("is_async", .bool isAsync)]

/-- A statement as JSON. -/
def Stmt.encode (number : Double → Json) : Stmt → Json
  | .expr e => .node "Expr" (e.encode number)
  | .declare n i m => .node "Let" (.object
      [("name", .string n), ("init", Expr.encodeOption number i), ("mutable", .bool m)])
  | .destructure p i => .node "Destructure" (.object
      [("pattern", p.encode), ("init", i.encode number)])
  | .block b => .node "Block" (.array (Stmt.encodeList number b))
  | .ifElse t c a => .node "If" (.object
      [("test", t.encode number), ("consequent", c.encode number),
        ("alternate", Stmt.encodeOption number a)])
  | .whileLoop t b => .node "While" (.object
      [("test", t.encode number), ("body", b.encode number)])
  | .forLoop i t u b => .node "For" (.object
      [("init", Stmt.encodeOption number i), ("test", Expr.encodeOption number t),
        ("update", Expr.encodeOption number u), ("body", b.encode number)])
  | .forEach v i b => .node "ForIn" (.object
      [("variable", .string v), ("iterable", i.encode number), ("body", b.encode number)])
  | .ret v => .node "Return" (Expr.encodeOption number v)
  | .breakLoop => .string "Break"
  | .continueLoop => .string "Continue"
  | .throw e => .node "Throw" (e.encode number)
  | .tryCatch b p c f => .node "TryCatch" (.object
      [("body", b.encode number), ("catch_param", .ofOption .string p),
        ("catch_body", Stmt.encodeOption number c),
        ("finally_body", Stmt.encodeOption number f)])
  | .function f => .node "Function" (f.encode number)
  | .holding s => .node "With" (s.encode number)

def Stmt.encodeList (number : Double → Json) : List Stmt → List Json
  | [] => []
  | s :: ss => s.encode number :: Stmt.encodeList number ss

def Stmt.encodeOption (number : Double → Json) : Option Stmt → Json
  | none => .null
  | some s => s.encode number

/-- A resource as JSON. -/
def Item.encode (number : Double → Json) : Item → Json
  | ⟨acquire, binding, none⟩ => .object
      [("acquire", acquire.encode number), ("binding", .ofOption Pattern.encode binding)]
  | ⟨acquire, binding, some arity⟩ => .object
      [("acquire", acquire.encode number), ("binding", .ofOption Pattern.encode binding),
        ("entry_arity", .ofNat arity.toNat)]

def Item.encodeList (number : Double → Json) : List Item → List Json
  | [] => []
  | i :: is => i.encode number :: Item.encodeList number is

/-- A scoped statement as JSON. -/
def Scoped.encode (number : Double → Json) : Scoped → Json
  | ⟨items, body, isAsync⟩ => .object
      [("items", .array (Item.encodeList number items)),
        ("body", .array (Stmt.encodeList number body)), ("is_async", .bool isAsync)]

end

/-- A program as JSON. -/
def Program.encode (number : Double → Json) (p : Program) : Json :=
  .object [("body", .array (Stmt.encodeList number p.body))]

end Bracket
