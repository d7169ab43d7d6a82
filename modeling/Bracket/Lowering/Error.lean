import Bracket.Tree.Binding

/-!
# Errors of lowering
-/

namespace Bracket

/-- A construct that a language cannot express. -/
inductive Unsupported where
  /-- Neither entry nor exit calls can suspend. -/
  | suspension
  /-- A suspending statement stands outside an asynchronous body. -/
  | suspensionOutsideAsync
  | breakOut
  | continueOut
  deriving DecidableEq, Repr

namespace Unsupported

/-- The construct in words. -/
def construct : Unsupported → String
  | .suspension => "async scoped statements (no suspending entry or exit call)"
  | .suspensionOutsideAsync => "async scoped statements outside an async body"
  | .breakOut => "`break` out of a scoped statement"
  | .continueOut => "`continue` out of a scoped statement"

end Unsupported

/-- Why a scoped statement cannot be lowered. -/
inductive LoweringError where
  | emptyStatement
  | malformedBinding (flaw : BindingFlaw)
  | unsupported (language : String) (construct : Unsupported)

namespace LoweringError

/-- The error in words. -/
def message : LoweringError → String
  | .emptyStatement => "scoped statement has no resource items"
  | .malformedBinding flaw => "malformed binding: " ++ flaw.reason
  | .unsupported language c => language ++ " cannot express " ++ c.construct

end LoweringError

end Bracket
