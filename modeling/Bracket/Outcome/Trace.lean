import Bracket.Outcome.Basic

/-!
# Traces of scoped statements

The reference behaviour of a scoped statement.  Resources are acquired from left
to right until one fails; the body runs if none does; then the resources that
are held are released, the newest first, each release being shown the exception
that propagates at that moment.
-/

namespace Bracket

/-- How a resource behaves. -/
structure Resource where
  /-- The exception that its acquisition raises, if it fails. -/
  acquireFails : Option Fault
  onRelease : Signal
  deriving DecidableEq, Repr

namespace Resource

/-- A resource that is acquired and released without incident. -/
def ok : Resource := ⟨none, .propagate⟩

/-- A resource that cannot be acquired. -/
def failing (kind : String) : Resource := ⟨some ⟨kind⟩, .propagate⟩

/-- A resource whose release gives a signal. -/
def releasing (s : Signal) : Resource := ⟨none, s⟩

end Resource

/-- An observable step of a scoped statement. -/
inductive Event where
  | acquire (index : Nat)
  | body
  | release (index : Nat) (observed : Option Fault)
  deriving DecidableEq, Repr

/-- The steps of a run and its outcome. -/
structure Trace where
  events : List Event
  outcome : Outcome
  deriving DecidableEq, Repr

namespace Trace

/-- The positions of the resources whose acquisition was tried. -/
def acquired (t : Trace) : List Nat :=
  t.events.filterMap fun
    | .acquire i => some i
    | _ => none

/-- The positions of the resources that were released. -/
def released (t : Trace) : List Nat :=
  t.events.filterMap fun
    | .release i _ => some i
    | _ => none

/-- The trace with events in front of it. -/
def after (events : List Event) (t : Trace) : Trace := ⟨events ++ t.events, t.outcome⟩

end Trace

/-- The result of acquiring resources one after the other. -/
structure Acquisition where
  events : List Event
  /-- The resources that are held and their signals, the newest first. -/
  held : List (Nat × Signal)
  failure : Option Fault

/-- Acquire resources until one fails, the first one at position `i`, on top of
those already held. -/
def acquireAll (i : Nat) (held : List (Nat × Signal)) : List Resource → Acquisition
  | [] => ⟨[], held, none⟩
  | r :: rest =>
      match r.acquireFails with
      | some e => ⟨[.acquire i], held, some e⟩
      | none =>
          let a := acquireAll (i + 1) ((i, r.onRelease) :: held) rest
          ⟨.acquire i :: a.events, a.held, a.failure⟩

/-- Release what is held, the newest first. -/
def releaseAll (o : Outcome) : List (Nat × Signal) → Trace
  | [] => ⟨[], o⟩
  | (i, s) :: rest =>
      Trace.after [.release i o.propagating] (releaseAll (o.afterRelease s) rest)

/-- Run a scoped statement over resources whose body has the given outcome. -/
def runScoped (resources : List Resource) (body : Outcome) : Trace :=
  let a := acquireAll 0 [] resources
  match a.failure with
  | none => Trace.after (a.events ++ [.body]) (releaseAll body a.held)
  | some e => Trace.after a.events (releaseAll (.exception e) a.held)

end Bracket
