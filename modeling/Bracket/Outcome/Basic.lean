/-!
# Outcomes and release signals

Control leaves a guarded region normally, with an exception, or by an early
exit.  The release of a resource sees the exception that is propagating, if
there is one, and answers with a signal: it handles the exception, lets things
be, or raises an exception of its own.  To a release an early exit looks like
normal completion.
-/

namespace Bracket

/-- An exception, known by its kind. -/
structure Fault where
  kind : String
  deriving DecidableEq, Repr

/-- The ways to leave a body early without an exception. -/
inductive EarlyExit where
  | returns
  | breaks
  | continues
  deriving DecidableEq, Repr

/-- How control leaves a guarded region. -/
inductive Outcome where
  | normal
  | exception (e : Fault)
  | earlyExit (exit : EarlyExit)
  deriving DecidableEq, Repr

/-- What a release does. -/
inductive Signal where
  /-- It suppresses a propagating exception. -/
  | handled
  /-- It changes nothing. -/
  | propagate
  /-- It raises, and the new exception takes the place of the outcome. -/
  | replace (e : Fault)
  deriving DecidableEq, Repr

namespace Outcome

/-- The exception that a release is shown. -/
def propagating : Outcome → Option Fault
  | .exception e => some e
  | _ => none

/-- The outcome after one release. -/
def afterRelease (o : Outcome) : Signal → Outcome
  | .replace e => .exception e
  | .handled =>
      match o with
      | .exception _ => .normal
      | _ => o
  | .propagate => o

/-- The final outcome of releases in order, and what each one was shown. -/
def afterReleases (o : Outcome) : List Signal → List (Option Fault) × Outcome
  | [] => ([], o)
  | s :: rest =>
      let (observed, final) := (o.afterRelease s).afterReleases rest
      (o.propagating :: observed, final)

/-- The outcomes after the first, the first two, … releases. -/
def releaseSteps (o : Outcome) : List Signal → List Outcome
  | [] => []
  | s :: rest => o.afterRelease s :: (o.afterRelease s).releaseSteps rest

end Outcome

end Bracket
