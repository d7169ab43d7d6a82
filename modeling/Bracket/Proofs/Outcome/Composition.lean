import Bracket.Proofs.Outcome.Nesting

/-!
# Traces of resources in two groups

The resources of a scoped statement may be split anywhere.  The run over the
inner group is the body of the run over the outer group: its events stand between
the acquisitions and the releases of the outer group, and the outer releases see
its outcome.  If the outer group cannot be acquired, the inner one does not
matter.
-/

namespace Bracket

namespace Event

/-- The event with the position of its resource moved up. -/
def shift (k : Nat) : Event → Event
  | .acquire i => .acquire (i + k)
  | .body => .body
  | .release i observed => .release (i + k) observed

/-- The event is the release of a resource. -/
def isRelease : Event → Bool
  | .release _ _ => true
  | _ => false

end Event

namespace Trace

/-- The trace with the positions of all resources moved up. -/
def shift (k : Nat) (t : Trace) : Trace := ⟨t.events.map (Event.shift k), t.outcome⟩

/-- To hold resources from a later position on is to move the trace up. -/
theorem nest_add
    (i k : Nat) (resources : List Resource) (inner : Trace) :
    nest (i + k) resources (inner.shift k) = (nest i resources inner).shift k := by
  induction resources generalizing i with
  | nil => rfl
  | cons r rest ih =>
      cases hr : r.acquireFails with
      | some e =>
          rw [nest_of_fails rest _ hr, nest_of_fails rest _ hr]
          rfl
      | none =>
          have hnext : i + k + 1 = i + 1 + k := Nat.add_right_comm i k 1
          rw [nest_of_acquired rest _ hr, nest_of_acquired rest _ hr, hnext, ih]
          simp [shift, Event.shift]

/-- What stands inside of resources that cannot all be acquired does not matter. -/
theorem nest_congr_of_fails
    {resources : List Resource} {r : Resource} {e : Fault} (hmem : r ∈ resources)
    (hr : r.acquireFails = some e) (i : Nat) (inner inner' : Trace) :
    nest i resources inner = nest i resources inner' := by
  induction resources generalizing i with
  | nil => exact absurd hmem List.not_mem_nil
  | cons first rest ih =>
      cases hfirst : first.acquireFails with
      | some e' => rw [nest_of_fails rest _ hfirst, nest_of_fails rest _ hfirst]
      | none =>
          have hrest : r ∈ rest := by
            rcases List.mem_cons.mp hmem with rfl | hrest
            · exact nomatch hr.symm.trans hfirst
            · exact hrest
          rw [nest_of_acquired rest _ hfirst, nest_of_acquired rest _ hfirst, ih hrest]

/-- The outcome of held resources depends on the outcome inside only. -/
theorem outcome_nest_congr
    (i : Nat) (resources : List Resource) (inner inner' : Trace)
    (h : inner.outcome = inner'.outcome) :
    (nest i resources inner).outcome = (nest i resources inner').outcome := by
  induction resources generalizing i with
  | nil => exact h
  | cons r rest ih =>
      cases hr : r.acquireFails with
      | some e => rw [nest_of_fails rest _ hr, nest_of_fails rest _ hr]
      | none => rw [nest_of_acquired rest _ hr, nest_of_acquired rest _ hr, ih]

/-- Resources that can all be acquired surround what happens inside: acquisitions come
before it, and releases, which depend on the outcome inside only, come behind it. -/
theorem events_nest
    {resources : List Resource} (h : ∀ r ∈ resources, r.acquireFails = none) (i : Nat)
    (inner : Trace) :
    (nest i resources inner).events =
      (List.range' i resources.length).map .acquire ++ inner.events ++
        (nest i resources ⟨[.body], inner.outcome⟩).events.filter Event.isRelease := by
  induction resources generalizing i with
  | nil => simp [nest, Event.isRelease]
  | cons r rest ih =>
      have hrest := ih (fun q hq => h q (List.mem_cons_of_mem r hq)) (i + 1)
      have houtcome :
          (nest (i + 1) rest inner).outcome =
            (nest (i + 1) rest ⟨[.body], inner.outcome⟩).outcome :=
        outcome_nest_congr (i + 1) rest inner _ rfl
      rw [nest_of_acquired rest _ (h r List.mem_cons_self),
        nest_of_acquired rest _ (h r List.mem_cons_self)]
      simp [hrest, houtcome, List.filter_cons, Event.isRelease, List.range'_succ]

end Trace

/-- A run over two groups of resources.  Where a resource of the front group fails, it is
the run over that group alone.  Otherwise the run over the back group, with its positions
moved up, stands between the acquisitions and the releases of the front group, whose body
has the outcome of that run. -/
theorem runScoped_append
    (front back : List Resource) (body : Outcome) :
    runScoped (front ++ back) body =
      if front.any (fun r => r.acquireFails.isSome) then runScoped front body
      else
        let inner := runScoped back body
        let outer := runScoped front inner.outcome
        ⟨(List.range front.length).map .acquire ++ inner.events.map (Event.shift front.length) ++
            outer.events.filter Event.isRelease,
          outer.outcome⟩ := by
  have hback :
      Trace.nest (0 + front.length) back ⟨[.body], body⟩ =
        (runScoped back body).shift front.length := by
    rw [Trace.runScoped_eq_nest]
    exact Trace.nest_add 0 front.length back ⟨[.body], body⟩
  have hsplit :
      runScoped (front ++ back) body =
        Trace.nest 0 front ((runScoped back body).shift front.length) := by
    rw [Trace.runScoped_eq_nest, Trace.nest_append, hback]
  rw [hsplit]
  by_cases hfails : front.any (fun r => r.acquireFails.isSome)
  · obtain ⟨r, hmem, hr⟩ := List.any_eq_true.mp hfails
    obtain ⟨e, he⟩ := Option.isSome_iff_exists.mp hr
    rw [if_pos hfails, Trace.runScoped_eq_nest front]
    exact Trace.nest_congr_of_fails hmem he 0 _ _
  · have hacquired : ∀ r ∈ front, r.acquireFails = none := by
      intro r hmem
      cases hr : r.acquireFails with
      | none => rfl
      | some e => exact absurd (List.any_eq_true.mpr ⟨r, hmem, by rw [hr]; rfl⟩) hfails
    have hevents := Trace.events_nest hacquired 0 ((runScoped back body).shift front.length)
    have houtcome :
        (Trace.nest 0 front ((runScoped back body).shift front.length)).outcome =
          (Trace.nest 0 front ⟨[.body], (runScoped back body).outcome⟩).outcome :=
      Trace.outcome_nest_congr 0 front _ _ rfl
    rw [if_neg hfails]
    dsimp only
    rw [Trace.runScoped_eq_nest front, List.range_eq_range', ← houtcome]
    exact congrArg (Trace.mk · _) hevents

end Bracket
