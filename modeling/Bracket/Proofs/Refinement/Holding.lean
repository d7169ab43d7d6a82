import Bracket.Proofs.Execution.Basic
import Bracket.Proofs.Outcome.Nesting

/-!
# Holding resources around code

What it means to hold resources around code, without any expansion: acquire the
first one, bind its entry value, hold the others, and release it on every way
out.  `Runtime.Holding` says so for the code's own run, and `Trace.nest` says the
same for the reference behaviour.
-/

namespace Bracket

namespace Ending

/-- The exception that a release is shown. -/
def shown : Ending → Option Fault
  | .error v => v.asFault
  | .ok _ => none

/-- The ending after one release. -/
def afterRelease (r : Ending) : Signal → Ending
  | .replace e => .error (.fault e)
  | .handled =>
      match r with
      | .error _ => .ok .normal
      | .ok c => .ok c
  | .propagate => r

variable (place : Placement) (r : Ending)

@[simp] theorem shown_move : (r.move place).shown = r.shown := by
  cases r with
  | ok c => rfl
  | error v => exact v.asFault_move place

theorem move_afterRelease
    (signal : Signal) :
    (r.afterRelease signal).move place = (r.move place).afterRelease signal := by
  cases signal with
  | replace e | propagate => rfl
  | handled => cases r <;> rfl

end Ending

namespace Outcome

/-- How code ends that has an outcome; `results` is what it returns if it
returns. -/
def ending (results : List Value) : Outcome → Ending
  | .normal => .ok .normal
  | .exception e => .error (.fault e)
  | .earlyExit .returns => .ok (.returned results)
  | .earlyExit .breaks => .ok .broke
  | .earlyExit .continues => .ok .continued

variable (results : List Value) (o : Outcome)

@[simp] theorem shown_ending : (o.ending results).shown = o.propagating := by
  cases o with
  | normal => rfl
  | exception e => rfl
  | earlyExit exit => cases exit <;> rfl

theorem move_ending
    (place : Placement) :
    (o.ending results).move place = o.ending (results.map (Value.move place)) := by
  cases o with
  | normal => rfl
  | exception e => rfl
  | earlyExit exit => cases exit <;> rfl

@[simp] theorem ending_afterRelease
    (signal : Signal) :
    (o.afterRelease signal).ending results = (o.ending results).afterRelease signal := by
  cases signal with
  | replace e => rfl
  | propagate => rfl
  | handled =>
      cases o with
      | normal => rfl
      | exception e => rfl
      | earlyExit exit => cases exit <;> rfl

end Outcome

/-- Where variables stand does not matter to the ending of nested resources if it
does not matter to that of the body. -/
theorem Trace.move_ending_nest
    {place : Placement} {results : List Value} {t : Trace}
    (h : (t.outcome.ending results).move place = t.outcome.ending results)
    (i : Nat) (resources : List Resource) :
    ((nest i resources t).outcome.ending results).move place =
      (nest i resources t).outcome.ending results := by
  induction resources generalizing i with
  | nil => exact h
  | cons r resources ih =>
      cases hfails : r.acquireFails with
      | some e =>
          rw [nest_of_fails _ _ hfails]
          rfl
      | none =>
          rw [nest_of_acquired _ _ hfails, Outcome.ending_afterRelease, Ending.move_afterRelease,
            ih]

namespace Runtime

variable {W : Type} (rt : Runtime W) (conv : Conventions) (env : Env)

/-- The entry value of the resource at a position can be bound as the item
wants. -/
def Binds (w : W) (i : Nat) (item : Item) : Prop :=
  ∀ p, item.binding = some p → ∃ vs, rt.unpack conv w p (rt.entryValue i).1 = .ok vs

/-- Hold resources, the first one at position `i`, around code with the answers
`inner`: from a state to an ending and the events on the way. -/
inductive Holding (inner : State W → Answer W Completion → Prop) :
    Nat → List Item → State W → Ending → List Event → Prop
  /-- All resources are held, and the code runs. -/
  | code {i s r s' es} :
      inner s ⟨r, s', es⟩ → Holding inner i [] s r es
  /-- A resource cannot be acquired. -/
  | fails {i item items s s' e} :
      rt.Evaluates env item.acquire s ⟨.ok (.manager i), s', []⟩ →
      (rt.resource i).acquireFails = some e →
      Holding inner i (item :: items) s (.error (.fault e)) [.acquire i]
  /-- The entry value cannot be bound; the resource is released. -/
  | unbound {i item items s s' p v} :
      rt.Evaluates env item.acquire s ⟨.ok (.manager i), s', []⟩ →
      (rt.resource i).acquireFails = none →
      item.binding = some p →
      rt.unpack conv s'.world p (rt.entryValue i).1 = .error v →
      Holding inner i (item :: items) s (Ending.afterRelease (.error v) (rt.resource i).onRelease)
        [.acquire i, .release i v.asFault]
  /-- The others are held in turn, and then the resource is released. -/
  | held {i item items s s' r es} :
      rt.Evaluates env item.acquire s ⟨.ok (.manager i), s', []⟩ →
      (rt.resource i).acquireFails = none →
      rt.Binds conv s'.world i item →
      Holding inner (i + 1) items s' r es →
      Holding inner i (item :: items) s (r.afterRelease (rt.resource i).onRelease)
        (.acquire i :: es ++ [.release i r.shown])

/-- Every item evaluates to its resource, and every entry value can be bound. -/
inductive Acquires : Nat → List Item → State W → State W → Prop
  | nil {i s} : Acquires i [] s s
  | cons {i item items s s' s''} :
      rt.Evaluates env item.acquire s ⟨.ok (.manager i), s', []⟩ →
      rt.Binds conv s'.world i item →
      Acquires (i + 1) items s' s'' →
      Acquires i (item :: items) s s''

variable {rt conv env}

theorem drop_resources
    {i : Nat} (h : i < rt.resources.length) :
    rt.resources.drop i = rt.resource i :: rt.resources.drop (i + 1) := by
  rw [List.drop_eq_getElem_cons h, resource, List.getD_eq_getElem?_getD,
    List.getElem?_eq_getElem h, Option.getD_some]

/-- Items that can be acquired hold their resources, as far as these let
themselves be acquired, around what the remaining items hold. -/
theorem Acquires.holding
    {inner : State W → Answer W Completion → Prop} {i : Nat} {items rest : List Item}
    {s s' : State W} {results : List Value} {t : Trace}
    (h : rt.Acquires conv env i items s s')
    (hlength : i + items.length ≤ rt.resources.length)
    (hrest : rt.Holding conv env inner (i + items.length) rest s' (t.outcome.ending results)
      t.events) :
    rt.Holding conv env inner i (items ++ rest) s
      ((Trace.nest i ((rt.resources.drop i).take items.length) t).outcome.ending results)
      (Trace.nest i ((rt.resources.drop i).take items.length) t).events := by
  induction h with
  | nil => simpa [Trace.nest] using hrest
  | @cons i item items s s' s'' hacquire hbinds hitems ih =>
      rw [List.length_cons] at hlength hrest ⊢
      have hlt : i < rt.resources.length := by omega
      have hnext : i + 1 + items.length = i + (items.length + 1) := by omega
      have hinner := ih (by omega) (by rwa [hnext])
      rw [drop_resources hlt, List.take_succ_cons, List.cons_append]
      cases hfails : (rt.resource i).acquireFails with
      | some e =>
          rw [Trace.nest_of_fails _ _ hfails]
          exact .fails hacquire hfails
      | none =>
          rw [Trace.nest_of_acquired _ _ hfails, Outcome.ending_afterRelease,
            ← Outcome.shown_ending results]
          exact .held hacquire hfails hbinds hinner

/-- Items for all resources hold them around code as the reference run says. -/
theorem Acquires.holding_runScoped
    {inner : State W → Answer W Completion → Prop} {items : List Item} {s s₁ s₂ : State W}
    {b : Outcome} {results : List Value} (h : rt.Acquires conv env 0 items s s₁)
    (hlength : items.length = rt.resources.length)
    (hinner : inner s₁ ⟨b.ending results, s₂, [.body]⟩) :
    rt.Holding conv env inner 0 items s ((runScoped rt.resources b).outcome.ending results)
      (runScoped rt.resources b).events := by
  have hholding := h.holding (t := ⟨[.body], b⟩) (by omega) (.code hinner)
  rwa [List.append_nil, List.drop_zero, List.take_of_length_le (by omega),
    ← Trace.runScoped_eq_nest] at hholding

end Runtime

end Bracket
