import Bracket.Lowering.Context
import Bracket.Lowering.PackedReturn

/-!
# Expansion with a protected call

The guarded statements become a closure that is run by a protected call.  The
call yields a table: whether the closure succeeded, and its result or its error.
On success the resource is released without an error, and a packed return is
issued again.  On failure the resource is released with the error, which is
thrown again unless the release handled it.
-/

namespace Bracket

/-- The construct that a jump out of a closure would need. -/
def Unsupported.ofExit : EarlyExit → Unsupported
  | .continues => .continueOut
  | _ => .breakOut

namespace Context

/-- Element `i` of the outcome table of resource `n`. -/
def outcomeAt (c : Context) (n i : Nat) : Expr :=
  .index (.ident (c.temp .outcome n)) (.number (Double.ofNat i))

/-- Issue a packed return again. -/
def resumeReturn (c : Context) (n : Nat) : Stmt :=
  let result := c.outcomeAt n 2
  .ifElse (.binary result .ne .null)
    (.block [.ret (some (.call (.field (.ident "table") "unpack") [result]))]) none

/-- The statements after a successful call. -/
def onSuccess (c : Context) (n : Nat) (returns : Bool) : Stmt :=
  .block (.expr (c.exitCall n .null) :: if returns then [c.resumeReturn n] else [])

/-- The statement after a failed call. -/
def onFailure (c : Context) (n : Nat) : Stmt :=
  let error := c.outcomeAt n 2
  .ifElse (.negate (c.exitCall n error)) (.block [.throw error]) none

/-- Hold resource `n` around statements by a protected call. -/
def expandProtected
    (c : Context) (n : Nat) (item : Item) (inner : List Stmt) :
    Except LoweringError (List Stmt) :=
  match Stmt.packReturnsList 0 (c.bindEntryValue n item.binding ++ inner) with
  | .error exit => .error (.unsupported c.conventions.language (.ofExit exit))
  | .ok (guarded, returns) =>
      let protectedCall := Expr.call (.ident "pcall") [.function (.anonymous [] guarded)]
      .ok (c.enterStatements n item (c.enterCall n) ++
        [.letConst (c.temp .outcome n) (.array [protectedCall]),
          .ifElse (c.outcomeAt n 1) (c.onSuccess n returns) (some (c.onFailure n))])

end Context

end Bracket
