import Bracket.Conventions
import Bracket.Lowering.Error

/-!
# The context of lowering

Lowering works for the conventions of one language and with one prefix for the
names that it generates.  A generated name is the prefix, a role and the number
of the resource that it belongs to.
-/

namespace Bracket

/-- What a generated name stands for. -/
inductive Role where
  | manager
  | value
  | failed
  | error
  | outcome
  deriving DecidableEq, Repr

namespace Role

def text : Role → String
  | .manager => "mgr"
  | .value => "value"
  | .failed => "failed"
  | .error => "error"
  | .outcome => "outcome"

end Role

/-- The conventions to follow and the prefix of generated names. -/
structure Context where
  conventions : Conventions
  tempPrefix : String

namespace Context

/-- The generated name of resource `n` in a role. -/
def temp (c : Context) (role : Role) (n : Nat) : String := c.tempPrefix ++ role.text ++ n.repr

/-- The name begins like a generated one. -/
def isReserved (c : Context) (name : String) : Bool :=
  c.tempPrefix.toList.isPrefixOf name.toList

/-- The call that enters resource `n`. -/
def enterCall (c : Context) (n : Nat) : Expr :=
  .methodCall (.ident (c.temp .manager n)) c.conventions.enterMethod []

/-- The call that leaves resource `n` and shows it `argument`. -/
def exitCall (c : Context) (n : Nat) (argument : Expr) : Expr :=
  .methodCall (.ident (c.temp .manager n)) c.conventions.exitMethod [argument]

/-- The statements that bind the entry value of resource `n`. -/
def bindEntryValue (c : Context) (n : Nat) : Option Pattern → List Stmt
  | none => []
  | some (.name name) => [.letVar name (some (.ident (c.temp .value n)))]
  | some pattern =>
      let value := Expr.ident (c.temp .value n)
      if c.conventions.nativeUnpacking then [.destructure pattern value]
      else pattern.indexedBindings c.conventions.indexBase value

/-- The statements that acquire and enter resource `n`.  The entry value is kept
only if it is bound. -/
def enterStatements (c : Context) (n : Nat) (item : Item) (enter : Expr) : List Stmt :=
  [.letConst (c.temp .manager n) item.acquire,
    if item.binding.isNone then .expr enter else .letConst (c.temp .value n) enter]

end Context

end Bracket
