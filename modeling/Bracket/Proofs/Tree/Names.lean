import Bracket.Tree.Basic

/-!
# The names that code mentions

Every name that stands in a piece of code as a variable: where it is used, where
it is declared, and where it is a parameter.  Names of methods, of members and of
keys are not variables and do not count.
-/

namespace Bracket

/-- The variables that a resource binds. -/
def Item.boundNames (item : Item) : List String :=
  match item.binding with
  | none => []
  | some p => p.names

mutual

/-- The variables that an expression mentions. -/
def Expr.names : Expr → List String
  | .literal _ => []
  | .ident x => [x]
  | .binary l _ r => l.names ++ r.names
  | .unary _ e => e.names
  | .call f args => f.names ++ Expr.namesList args
  | .methodCall r _ args => r.names ++ Expr.namesList args
  | .member o p _ => o.names ++ p.names
  | .array es => Expr.namesList es
  | .object ps => Expr.namesPairs ps
  | .function f => f.names
  | .conditional t a b => t.names ++ a.names ++ b.names
  | .assign t v => t.names ++ v.names
  | .await e => e.names

def Expr.namesList : List Expr → List String
  | [] => []
  | e :: es => e.names ++ Expr.namesList es

def Expr.namesOption : Option Expr → List String
  | none => []
  | some e => e.names

def Expr.namesPairs : List (String × Expr) → List String
  | [] => []
  | (_, e) :: ps => e.names ++ Expr.namesPairs ps

/-- The variables that a function mentions, its parameters included. -/
def Func.names : Func → List String
  | ⟨_, params, body, _⟩ => params ++ Stmt.namesList body

/-- The variables that a statement mentions. -/
def Stmt.names : Stmt → List String
  | .expr e => e.names
  | .declare x i _ => x :: Expr.namesOption i
  | .destructure p i => p.names ++ i.names
  | .block b => Stmt.namesList b
  | .ifElse t a b => t.names ++ a.names ++ Stmt.namesOption b
  | .whileLoop t b => t.names ++ b.names
  | .forLoop i t u b =>
      Stmt.namesOption i ++ Expr.namesOption t ++ Expr.namesOption u ++ b.names
  | .forEach x i b => x :: i.names ++ b.names
  | .ret v => Expr.namesOption v
  | .breakLoop => []
  | .continueLoop => []
  | .throw e => e.names
  | .tryCatch b p h f => p.toList ++ b.names ++ Stmt.namesOption h ++ Stmt.namesOption f
  | .function f => f.name :: f.names
  | .holding s => s.names

def Stmt.namesList : List Stmt → List String
  | [] => []
  | s :: ss => s.names ++ Stmt.namesList ss

def Stmt.namesOption : Option Stmt → List String
  | none => []
  | some s => s.names

def Item.names : Item → List String
  | ⟨acquire, binding, arity⟩ => acquire.names ++ Item.boundNames ⟨acquire, binding, arity⟩

def Item.namesList : List Item → List String
  | [] => []
  | i :: is => i.names ++ Item.namesList is

/-- The variables that a scoped statement mentions, those that it binds
included. -/
def Scoped.names : Scoped → List String
  | ⟨items, body, _⟩ => Item.namesList items ++ Stmt.namesList body

end

attribute [grind =] Expr.names Expr.namesList Expr.namesOption Expr.namesPairs Func.names
  Stmt.names Stmt.namesList Stmt.namesOption Item.names Item.namesList

@[simp, grind =] theorem Stmt.namesList_append
    (a b : List Stmt) :
    Stmt.namesList (a ++ b) = Stmt.namesList a ++ Stmt.namesList b := by
  induction a with
  | nil => simp [Stmt.namesList]
  | cons s a ih => simp [Stmt.namesList, ih]

@[simp, grind =] theorem Stmt.names_ofList
    (body : List Stmt) :
    (Stmt.ofList body).names = Stmt.namesList body := by
  match body with
  | [] => simp [Stmt.ofList, Stmt.names]
  | [s] => simp [Stmt.ofList, Stmt.namesList]
  | s :: t :: rest => simp [Stmt.ofList, Stmt.names]

end Bracket
