import Bracket.Lowering.Context

/-!
# Expansion with catch and finally

A resource is entered outside the guarded region, so that a failed acquisition
does not release the resource itself.  The catch clause notes the failure,
releases the resource with the error and throws the error again unless the
release handled it.  The finally clause releases the resource on every other way
out; the note keeps it from releasing a second time.
-/

namespace Bracket

/-- The call, awaited in an asynchronous statement. -/
def Expr.suspendIf (isAsync : Bool) (call : Expr) : Expr :=
  if isAsync then .await call else call

namespace Context

/-- The catch clause of resource `n`. -/
def onError (c : Context) (isAsync : Bool) (n : Nat) : Stmt :=
  let error := Expr.ident (c.temp .error n)
  .block
    [.expr (.assign (.ident (c.temp .failed n)) (.bool true)),
      .ifElse (.negate (.suspendIf isAsync (c.exitCall n error))) (.block [.throw error]) none]

/-- The finally clause of resource `n`. -/
def onLeave (c : Context) (isAsync : Bool) (n : Nat) : Stmt :=
  .block
    [.ifElse (.negate (.ident (c.temp .failed n)))
      (.block [.expr (.suspendIf isAsync (c.exitCall n .null))]) none]

/-- Hold resource `n` around statements by a guarded region. -/
def expandGuarded
    (c : Context) (isAsync : Bool) (n : Nat) (item : Item) (inner : List Stmt) : List Stmt :=
  c.enterStatements n item (.suspendIf isAsync (c.enterCall n)) ++
    [.letVar (c.temp .failed n) (some (.bool false)),
      .tryCatch (.block (c.bindEntryValue n item.binding ++ inner))
        (some (c.temp .error n)) (some (c.onError isAsync n)) (some (c.onLeave isAsync n))]

end Context

end Bracket
