import Bracket.Json.Basic
import Bracket.Outcome.Trace
import Bracket.Tree.Decode

/-!
# Outcomes and traces as JSON
-/

namespace Bracket

namespace Fault

def decode : Json → Option Fault
  | .object fs => (Json.field Json.toText? "kind" fs).map .mk
  | _ => none

def encode (e : Fault) : Json := .object [("kind", .string e.kind)]

end Fault

namespace EarlyExit

def tag : EarlyExit → String
  | .returns => "Return"
  | .breaks => "Break"
  | .continues => "Continue"

def ofTag? : String → Option EarlyExit
  | "Return" => some .returns
  | "Break" => some .breaks
  | "Continue" => some .continues
  | _ => none

end EarlyExit

namespace Outcome

def decode : Json → Option Outcome
  | .object [("Exception", v)] => (Fault.decode v).map .exception
  | .object [("EarlyExit", v)] => (v.toTag?.bind EarlyExit.ofTag?).map .earlyExit
  | v => if v.toTag? = some "Normal" then some .normal else none

def encode : Outcome → Json
  | .normal => .string "Normal"
  | .exception e => .object [("Exception", e.encode)]
  | .earlyExit exit => .object [("EarlyExit", .string exit.tag)]

end Outcome

namespace Signal

def decode : Json → Option Signal
  | .object [("Replace", v)] => (Fault.decode v).map .replace
  | v =>
      match v.toTag? with
      | some "Handled" => some .handled
      | some "Propagate" => some .propagate
      | _ => none

end Signal

namespace Resource

def decode : Json → Option Resource
  | .object [("Failing", v)] => v.toText?.map .failing
  | .object [("Releasing", v)] => (Signal.decode v).map .releasing
  | .object [("Full", .object fs)] => do
      let acquireFails ← Json.optionalField Fault.decode "acquire_fails" fs
      let onRelease ← Json.field Signal.decode "on_release" fs
      some ⟨acquireFails, onRelease⟩
  | v => if v.toTag? = some "Ok" then some .ok else none

end Resource

def Event.encode : Event → Json
  | .acquire i => .object [("Acquire", .ofNat i)]
  | .body => .string "Body"
  | .release i observed => .object
      [("Release", .object [("index", .ofNat i), ("observed", .ofOption Fault.encode observed)])]

def Trace.encode (t : Trace) : Json :=
  .object [("events", .array (t.events.map Event.encode)), ("outcome", t.outcome.encode)]

end Bracket
