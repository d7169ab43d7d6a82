import Bracket.Outcome.Plan
import Bracket.Outcome.Trace

/-!
# The order of releases

The trace of a scoped statement, read off its resources.  Up to the first resource that
cannot be acquired, that one included, acquisition is tried from left to right.  If there
is none, the body runs.  Then the resources before it are released from right to left, in
the order of the plan, and what they are shown and the outcome come from threading their
signals.

Acquisition is described around what is held already, and release for any held resources;
the two meet in the list of held resources.
-/

namespace Bracket

namespace Resource

/-- The resource cannot be acquired. -/
def fails (r : Resource) : Bool := r.acquireFails.isSome

/-- The position of the first resource that cannot be acquired, or the number of resources
if all of them can. -/
def firstFailing (resources : List Resource) : Nat := resources.findIdx fails

theorem firstFailing_cons_of_fails
    {r : Resource} {e : Fault} (rest : List Resource) (h : r.acquireFails = some e) :
    firstFailing (r :: rest) = 0 := by
  simp [firstFailing, List.findIdx_cons, fails, h]

theorem firstFailing_cons_of_acquired
    {r : Resource} (rest : List Resource) (h : r.acquireFails = none) :
    firstFailing (r :: rest) = firstFailing rest + 1 := by
  simp [firstFailing, List.findIdx_cons, fails, h]

theorem firstFailing_le_length (resources : List Resource) :
    firstFailing resources ≤ resources.length :=
  List.findIdx_le_length

/-- The exception of the first resource that cannot be acquired. -/
def failure? (resources : List Resource) : Option Fault :=
  resources[firstFailing resources]?.bind acquireFails

end Resource

open Resource (firstFailing failure?)

/-! ## Acquisition -/

/-- The positions, from `i` on, of the resources whose acquisition is tried. -/
theorem events_acquireAll
    (i : Nat) (held : List (Nat × Signal)) (resources : List Resource) :
    (acquireAll i held resources).events =
      (List.range' i (min (firstFailing resources + 1) resources.length)).map .acquire := by
  induction resources generalizing i held with
  | nil => simp [acquireAll]
  | cons r rest ih =>
      cases hr : r.acquireFails with
      | some e => simp [acquireAll, hr, Resource.firstFailing_cons_of_fails rest hr]
      | none =>
          have hnext := ih (i + 1) ((i, r.onRelease) :: held)
          have hcount :
              min (firstFailing rest + 1 + 1) (rest.length + 1) =
                min (firstFailing rest + 1) rest.length + 1 := by
            omega
          rw [Resource.firstFailing_cons_of_acquired rest hr, List.length_cons, hcount,
            List.range'_succ, List.map_cons, ← hnext]
          simp only [acquireAll, hr]

/-- The resources before the first one that fails are held, the newest first, on top of
those held already. -/
theorem held_acquireAll
    (i : Nat) (held : List (Nat × Signal)) (resources : List Resource) :
    (acquireAll i held resources).held =
      ((List.range' i (firstFailing resources)).zip
        ((resources.take (firstFailing resources)).map Resource.onRelease)).reverse ++ held := by
  induction resources generalizing i held with
  | nil => simp [acquireAll, firstFailing]
  | cons r rest ih =>
      cases hr : r.acquireFails with
      | some e => simp [acquireAll, hr, Resource.firstFailing_cons_of_fails rest hr]
      | none =>
          have hnext := ih (i + 1) ((i, r.onRelease) :: held)
          rw [Resource.firstFailing_cons_of_acquired rest hr, List.range'_succ,
            List.take_succ_cons, List.map_cons, List.zip_cons_cons, List.reverse_cons,
            List.append_assoc, List.singleton_append, ← hnext]
          simp only [acquireAll, hr]

theorem failure_acquireAll
    (i : Nat) (held : List (Nat × Signal)) (resources : List Resource) :
    (acquireAll i held resources).failure = failure? resources := by
  induction resources generalizing i held with
  | nil => simp [acquireAll, failure?]
  | cons r rest ih =>
      cases hr : r.acquireFails with
      | some e => simp [acquireAll, hr, failure?, Resource.firstFailing_cons_of_fails rest hr]
      | none =>
          have hnext := ih (i + 1) ((i, r.onRelease) :: held)
          rw [failure?, Resource.firstFailing_cons_of_acquired rest hr, List.getElem?_cons_succ]
          simp only [acquireAll, hr]
          exact hnext

/-- All resources can be acquired exactly if none of them is the first to fail. -/
theorem Resource.failure?_eq_none_iff
    (resources : List Resource) :
    failure? resources = none ↔ firstFailing resources = resources.length := by
  induction resources with
  | nil => simp [failure?, firstFailing]
  | cons r rest ih =>
      cases hr : r.acquireFails with
      | some e => simp [failure?, firstFailing_cons_of_fails rest hr, hr]
      | none =>
          rw [failure?, firstFailing_cons_of_acquired rest hr, List.getElem?_cons_succ,
            List.length_cons, Nat.add_right_cancel_iff]
          exact ih

/-! ## Release -/

theorem Outcome.length_afterReleases
    (o : Outcome) (signals : List Signal) :
    (o.afterReleases signals).1.length = signals.length := by
  induction signals generalizing o with
  | nil => rfl
  | cons s rest ih =>
      have hrest := ih (o.afterRelease s)
      simp only [afterReleases, List.length_cons, hrest]

/-- Held resources are released in order, and their signals are threaded. -/
theorem releaseAll_eq
    (o : Outcome) (held : List (Nat × Signal)) :
    releaseAll o held =
      ⟨List.zipWith .release (held.map Prod.fst) (o.afterReleases (held.map Prod.snd)).1,
        (o.afterReleases (held.map Prod.snd)).2⟩ := by
  induction held generalizing o with
  | nil => rfl
  | cons h rest ih =>
      obtain ⟨i, s⟩ := h
      rw [releaseAll, ih]
      rfl

/-- The plan releases what lies before the failed position, from right to left. -/
theorem Plan.releasesAfterFailure_ofLength
    {k n : Nat} (h : k ≤ n) : (ofLength n).releasesAfterFailure k = (List.range k).reverse := by
  have hfilter : (List.range n).filter (· < k) = List.range k := by
    obtain ⟨m, rfl⟩ := Nat.exists_eq_add_of_le h
    have hfront : ∀ i ∈ List.range k, decide (i < k) = true := by simp
    have hback : ∀ i ∈ (List.range m).map (k + ·), ¬decide (i < k) = true := by simp
    rw [List.range_add, List.filter_append, List.filter_eq_self.mpr hfront,
      List.filter_eq_nil_iff.mpr hback, List.append_nil]
  rw [releasesAfterFailure, ofLength, List.filter_reverse, hfilter]

/-! ## The trace -/

/-- The resources that are held when acquisition ends, by their positions and signals. -/
theorem held_acquireAll_unzip
    (resources : List Resource) :
    let held := (acquireAll 0 [] resources).held
    held.map Prod.fst = (List.range (firstFailing resources)).reverse ∧
      held.map Prod.snd =
        (resources.take (firstFailing resources)).reverse.map Resource.onRelease := by
  have hlength :
      ((resources.take (firstFailing resources)).map Resource.onRelease).length =
        (List.range' 0 (firstFailing resources)).length := by
    simp [Resource.firstFailing_le_length]
  intro held
  rw [show held = _ from held_acquireAll 0 [] resources, List.append_nil, List.map_reverse,
    List.map_reverse, List.map_fst_zip (Nat.le_of_eq hlength.symm),
    List.map_snd_zip (Nat.le_of_eq hlength), List.range_eq_range', List.map_reverse]
  exact ⟨rfl, rfl⟩

/-- The trace of a scoped statement by the position `k` of the first resource that cannot be
acquired, or the number of resources.  Acquisition is tried up to `k`, and the body runs if
nothing fails.  Then the resources before `k` are released from right to left, as the plan
says; their signals, threaded from the failure or from the outcome of the body, give what
each of them is shown and the outcome. -/
theorem runScoped_releases_in_reverse
    (resources : List Resource) (body : Outcome) :
    let k := firstFailing resources
    let initial := (failure? resources).elim body .exception
    let released := initial.afterReleases ((resources.take k).reverse.map Resource.onRelease)
    runScoped resources body =
        ⟨(List.range (min (k + 1) resources.length)).map .acquire ++
            (if k = resources.length then [.body] else []) ++
            List.zipWith .release (List.range k).reverse released.1,
          released.2⟩ ∧
      released.1.length = k ∧
      (Plan.ofLength resources.length).releasesAfterFailure k = (List.range k).reverse := by
  intro k initial released
  have hk : k ≤ resources.length := Resource.firstFailing_le_length resources
  have hlength : released.1.length = k := by
    simp [released, Outcome.length_afterReleases, hk]
  refine ⟨?_, hlength, Plan.releasesAfterFailure_ofLength hk⟩
  obtain ⟨hpositions, hsignals⟩ := held_acquireAll_unzip resources
  have hrelease (o : Outcome) :
      releaseAll o (acquireAll 0 [] resources).held =
        ⟨List.zipWith .release (List.range k).reverse
            (o.afterReleases ((resources.take k).reverse.map Resource.onRelease)).1,
          (o.afterReleases ((resources.take k).reverse.map Resource.onRelease)).2⟩ := by
    rw [releaseAll_eq, hpositions, hsignals]
  have hevents := events_acquireAll 0 [] resources
  rw [← List.range_eq_range'] at hevents
  have hbody := Resource.failure?_eq_none_iff resources
  rw [runScoped]
  cases hfailure : failure? resources with
  | none =>
      have hall : k = resources.length := hbody.mp hfailure
      have hinitial : initial = body := by
        simp [initial, hfailure]
      simp only [failure_acquireAll, hfailure, hrelease, hevents, Trace.after, if_pos hall,
        released, hinitial, k]
  | some e =>
      have hfails : k ≠ resources.length := fun hall => nomatch hfailure.symm.trans (hbody.mpr hall)
      have hinitial : initial = .exception e := by
        simp [initial, hfailure]
      simp only [failure_acquireAll, hfailure, hrelease, hevents, Trace.after, if_neg hfails,
        released, hinitial, List.append_nil, k]

end Bracket
