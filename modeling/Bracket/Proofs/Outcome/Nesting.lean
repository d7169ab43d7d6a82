import Bracket.Outcome.Trace

/-!
# Traces by nesting

A scoped statement may also be read from the outside in: acquire the first
resource, run what the others hold, and release it again.  `Trace.nest` is that
reading around an arbitrary inner trace, and with the body inside it is the
reference run.
-/

namespace Bracket

namespace Trace

/-- Hold resources, the first one at position `i`, around an inner trace.  A
resource that cannot be acquired takes the place of everything inside. -/
def nest (i : Nat) : List Resource → Trace → Trace
  | [], inner => inner
  | r :: rest, inner =>
      match r.acquireFails with
      | some e => ⟨[.acquire i], .exception e⟩
      | none =>
          let t := nest (i + 1) rest inner
          ⟨.acquire i :: t.events ++ [.release i t.outcome.propagating],
            t.outcome.afterRelease r.onRelease⟩

/-- The trace without the run of the body. -/
def withoutBody (t : Trace) : Trace := ⟨t.events.filter (· ≠ .body), t.outcome⟩

theorem nest_of_fails
    {i : Nat} {r : Resource} {e : Fault} (rest : List Resource) (inner : Trace)
    (h : r.acquireFails = some e) :
    nest i (r :: rest) inner = ⟨[.acquire i], .exception e⟩ := by
  simp [nest, h]

theorem nest_of_acquired
    {i : Nat} {r : Resource} (rest : List Resource) (inner : Trace)
    (h : r.acquireFails = none) :
    nest i (r :: rest) inner =
      ⟨.acquire i :: (nest (i + 1) rest inner).events ++
          [.release i (nest (i + 1) rest inner).outcome.propagating],
        (nest (i + 1) rest inner).outcome.afterRelease r.onRelease⟩ := by
  simp [nest, h]

/-- Acquiring resources on top of those that are held, running an inner trace,
and releasing all of them is to release the held ones after the nested trace. -/
theorem acquireAll_releaseAll_eq_nest
    (rest : List Resource) (inner : Trace) (i : Nat) (held : List (Nat × Signal)) :
    (match (acquireAll i held rest).failure with
      | none =>
          after ((acquireAll i held rest).events ++ inner.events)
            (releaseAll inner.outcome (acquireAll i held rest).held)
      | some e =>
          after (acquireAll i held rest).events
            (releaseAll (.exception e) (acquireAll i held rest).held)) =
      after (nest i rest inner).events (releaseAll (nest i rest inner).outcome held) := by
  induction rest generalizing i held with
  | nil => simp [acquireAll, nest]
  | cons r rest ih =>
      cases hr : r.acquireFails with
      | some e => simp [acquireAll, nest, hr]
      | none =>
          have hnext := ih (i + 1) ((i, r.onRelease) :: held)
          rw [nest_of_acquired rest inner hr]
          simp only [acquireAll, hr]
          cases hf : (acquireAll (i + 1) ((i, r.onRelease) :: held) rest).failure with
          | none =>
              rw [hf] at hnext
              simp only [releaseAll, after, Trace.mk.injEq] at hnext ⊢
              exact ⟨by simp [hnext.1], hnext.2⟩
          | some e =>
              rw [hf] at hnext
              simp only [releaseAll, after, Trace.mk.injEq] at hnext ⊢
              exact ⟨by simp [hnext.1], hnext.2⟩

/-- The reference run nests the resources around the body. -/
theorem runScoped_eq_nest
    (resources : List Resource) (body : Outcome) :
    runScoped resources body = nest 0 resources ⟨[.body], body⟩ := by
  have h := acquireAll_releaseAll_eq_nest resources ⟨[.body], body⟩ 0 []
  rw [runScoped]
  refine h.trans ?_
  simp [after, releaseAll]

/-- To hold resources and then others is to hold all of them. -/
theorem nest_append
    (i : Nat) (front back : List Resource) (inner : Trace) :
    nest i (front ++ back) inner = nest i front (nest (i + front.length) back inner) := by
  induction front generalizing i with
  | nil => rfl
  | cons r front ih =>
      have hnext : i + 1 + front.length = i + (front.length + 1) := by omega
      rw [List.cons_append, List.length_cons]
      cases hr : r.acquireFails with
      | some e => rw [nest_of_fails _ _ hr, nest_of_fails _ _ hr]
      | none => rw [nest_of_acquired _ _ hr, nest_of_acquired _ _ hr, ih, hnext]

/-- Resources that can all be acquired are, from left to right. -/
theorem acquired_nest
    {resources : List Resource} (h : ∀ r ∈ resources, r.acquireFails = none)
    (i : Nat) (inner : Trace) :
    (nest i resources inner).acquired = List.range' i resources.length ++ inner.acquired := by
  induction resources generalizing i with
  | nil => rfl
  | cons r resources ih =>
      have hrest := ih (fun q hq => h q (List.mem_cons_of_mem r hq)) (i + 1)
      rw [nest_of_acquired _ _ (h r List.mem_cons_self)]
      simp only [acquired] at hrest
      simp [acquired, hrest, List.range'_succ]

/-- Resources that can all be acquired are released from right to left. -/
theorem released_nest
    {resources : List Resource} (h : ∀ r ∈ resources, r.acquireFails = none)
    (i : Nat) (inner : Trace) :
    (nest i resources inner).released =
      inner.released ++ (List.range' i resources.length).reverse := by
  induction resources generalizing i with
  | nil => simp [nest]
  | cons r resources ih =>
      have hrest := ih (fun q hq => h q (List.mem_cons_of_mem r hq)) (i + 1)
      rw [nest_of_acquired _ _ (h r List.mem_cons_self)]
      simp only [released] at hrest
      simp [released, hrest, List.range'_succ]

/-- What happens inside of resources that can all be acquired stays visible. -/
theorem mem_events_nest
    {resources : List Resource} {e : Event} {inner : Trace}
    (h : ∀ r ∈ resources, r.acquireFails = none) (i : Nat) (he : e ∈ inner.events) :
    e ∈ (nest i resources inner).events := by
  induction resources generalizing i with
  | nil => exact he
  | cons r resources ih =>
      have hrest := ih (fun q hq => h q (List.mem_cons_of_mem r hq)) (i + 1)
      rw [nest_of_acquired _ _ (h r List.mem_cons_self)]
      simp [hrest]

/-- Nesting records no run of the body by itself. -/
theorem withoutBody_nest
    (i : Nat) (resources : List Resource) (inner : Trace) :
    (nest i resources inner).withoutBody = nest i resources inner.withoutBody := by
  induction resources generalizing i with
  | nil => rfl
  | cons r rest ih =>
      cases hr : r.acquireFails with
      | some e =>
          rw [nest_of_fails rest _ hr, nest_of_fails rest _ hr]
          rfl
      | none =>
          rw [nest_of_acquired rest _ hr, nest_of_acquired rest _ hr, ← ih]
          simp [withoutBody]

theorem body_not_mem_withoutBody (t : Trace) : .body ∉ t.withoutBody.events := by
  simp [withoutBody]

end Trace

end Bracket
