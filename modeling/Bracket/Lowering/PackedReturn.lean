import Bracket.Outcome.Basic
import Bracket.Tree.Basic

/-!
# Returns out of a closure

When statements become the body of a closure, a return would only leave the
closure.  `packReturns` makes every such return yield a table with the returned
value, or an empty table, so that it can be told apart from falling through.
Jumps out of a loop that lies outside the closure cannot be expressed at all.

Functions inside the statements keep their own returns.
-/

namespace Bracket

namespace Stmt

mutual

/-- Pack the returns of a statement that is nested in `depth` loops of the
closure.  The result says whether there was a return; the error is the first
jump that cannot leave the closure. -/
def packReturns (depth : Nat) : Stmt → Except EarlyExit (Stmt × Bool)
  | .ret value => .ok (.ret (some (.array value.toList)), true)
  | .breakLoop => if depth = 0 then .error .breaks else .ok (.breakLoop, false)
  | .continueLoop => if depth = 0 then .error .continues else .ok (.continueLoop, false)
  | .block body => do
      let (body, found) ← packReturnsList depth body
      .ok (.block body, found)
  | .ifElse test consequent alternate => do
      let (consequent, found) ← packReturns depth consequent
      let (alternate, found') ← packReturnsOption depth alternate
      .ok (.ifElse test consequent alternate, found || found')
  | .whileLoop test body => do
      let (body, found) ← packReturns (depth + 1) body
      .ok (.whileLoop test body, found)
  | .forLoop init test update body => do
      let (body, found) ← packReturns (depth + 1) body
      .ok (.forLoop init test update body, found)
  | .forEach name iterable body => do
      let (body, found) ← packReturns (depth + 1) body
      .ok (.forEach name iterable body, found)
  | .tryCatch body catchParam catchBody finallyBody => do
      let (body, found) ← packReturns depth body
      let (catchBody, found') ← packReturnsOption depth catchBody
      let (finallyBody, found'') ← packReturnsOption depth finallyBody
      .ok (.tryCatch body catchParam catchBody finallyBody, found || found' || found'')
  | .holding ⟨items, body, isAsync⟩ => do
      let (body, found) ← packReturnsList depth body
      .ok (.holding ⟨items, body, isAsync⟩, found)
  | s => .ok (s, false)

def packReturnsList (depth : Nat) : List Stmt → Except EarlyExit (List Stmt × Bool)
  | [] => .ok ([], false)
  | s :: ss => do
      let (s, found) ← packReturns depth s
      let (ss, found') ← packReturnsList depth ss
      .ok (s :: ss, found || found')

def packReturnsOption (depth : Nat) : Option Stmt → Except EarlyExit (Option Stmt × Bool)
  | none => .ok (none, false)
  | some s => do
      let (s, found) ← packReturns depth s
      .ok (some s, found)

end

end Stmt

end Bracket
