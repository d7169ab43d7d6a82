import Bracket.Proofs.Outcome.ReleaseOrder

/-!
# Runs by plan

A plan lists positions, and a run by plan is two loops over them.  The first tries the
resources in the order of acquisition and stops at the first failure, whose position marks
how far acquisition came; the mark stands at the number of resources if nothing fails.  The
second goes through the releases that the plan has below the mark.  Such a run is the
reference run, which knows of no positions to look up and keeps the held resources in a list.
-/

namespace Bracket

open Resource (firstFailing failure?)

namespace Plan

/-! ## Positions -/

/-- The entries of a list at the given positions, each with its position. -/
def visit {α : Type} (xs : List α) (positions : List Nat) : List (α × Nat) :=
  positions.filterMap fun i => xs[i]?.map fun x => (x, i)

variable {α : Type}

@[simp]
theorem visit_nil (xs : List α) : visit xs [] = [] := rfl

theorem visit_cons
    {xs : List α} {x : α} {i : Nat} (positions : List Nat) (h : xs[i]? = some x) :
    visit xs (i :: positions) = (x, i) :: visit xs positions := by
  simp [visit, h]

theorem visit_reverse
    (xs : List α) (positions : List Nat) :
    visit xs positions.reverse = (visit xs positions).reverse :=
  List.filterMap_reverse

/-- The positions of a prefix, in order, visit the entries of the prefix. -/
theorem visit_range'_take
    (front back : List α) (k : Nat) (h : k ≤ back.length) :
    visit (front ++ back) (List.range' front.length k) = (back.take k).zipIdx front.length := by
  induction k generalizing front back with
  | zero => simp
  | succ k ih =>
      cases back with
      | nil => simp at h
      | cons x back =>
          have hx : (front ++ x :: back)[front.length]? = some x := by simp
          have hk : k ≤ back.length := by simpa using h
          have hrest := ih (front ++ [x]) back hk
          rw [List.append_assoc, List.singleton_append, List.length_append,
            List.length_singleton] at hrest
          rw [List.range'_succ, visit_cons _ hx, hrest, List.take_succ_cons, List.zipIdx_cons]

theorem visit_range_take
    (xs : List α) {k : Nat} (h : k ≤ xs.length) :
    visit xs (List.range k) = (xs.take k).zipIdx := by
  rw [List.range_eq_range']
  exact visit_range'_take [] xs k h

/-- The order of acquisition visits everything from left to right. -/
theorem visit_acquire_ofLength
    (xs : List α) : visit xs (ofLength xs.length).acquire = xs.zipIdx := by
  have hall := visit_range_take xs (Nat.le_refl xs.length)
  rwa [List.take_length] at hall

/-- The order of release visits everything from right to left. -/
theorem visit_release_ofLength
    (xs : List α) : visit xs (ofLength xs.length).release = xs.zipIdx.reverse := by
  rw [ofLength, visit_reverse, ← visit_acquire_ofLength, ofLength]

/-! ## Loops -/

/-- How far a run has come. -/
structure Progress where
  events : List Event
  /-- The resources before this position are held. -/
  mark : Nat
  current : Outcome

/-- Try resources one after the other, up to the first failure, which moves the mark. -/
def acquireEach : List (Resource × Nat) → Progress → Progress
  | [], p => p
  | (r, i) :: rest, p =>
      let tried := p.events ++ [.acquire i]
      match r.acquireFails with
      | some e => ⟨tried, i, .exception e⟩
      | none => acquireEach rest { p with events := tried }

/-- Release a resource and go on with what its signal makes of the outcome. -/
def releaseNext (t : Trace) : Resource × Nat → Trace
  | (r, i) =>
      ⟨t.events ++ [.release i t.outcome.propagating], t.outcome.afterRelease r.onRelease⟩

/-- Run a scoped statement over resources by going through the positions of a plan. -/
def run (plan : Plan) (resources : List Resource) (body : Outcome) : Trace :=
  let p := acquireEach (visit resources plan.acquire) ⟨[], resources.length, body⟩
  let events := if p.mark = resources.length then p.events ++ [.body] else p.events
  (visit resources (plan.releasesAfterFailure p.mark)).foldl releaseNext ⟨events, p.current⟩

/-! ## Acquisition -/

/-- What the loop of acquisition adds: the resources up to the first one that fails are
tried, and the mark moves to that one. -/
theorem acquireEach_zipIdx
    (rest : List Resource) (i : Nat) (events : List Event) (body : Outcome) :
    acquireEach (rest.zipIdx i) ⟨events, i + rest.length, body⟩ =
      ⟨events ++ (List.range' i (min (firstFailing rest + 1) rest.length)).map .acquire,
        i + firstFailing rest, (failure? rest).elim body .exception⟩ := by
  induction rest generalizing i events with
  | nil => simp [acquireEach, firstFailing, failure?]
  | cons r rest ih =>
      rw [List.zipIdx_cons]
      cases hr : r.acquireFails with
      | some e => simp [acquireEach, hr, failure?, Resource.firstFailing_cons_of_fails rest hr]
      | none =>
          have hlength : i + (rest.length + 1) = i + 1 + rest.length := by omega
          have hmark : i + 1 + firstFailing rest = i + (firstFailing rest + 1) := by omega
          have hcount :
              min (firstFailing rest + 1 + 1) (rest.length + 1) =
                min (firstFailing rest + 1) rest.length + 1 := by
            omega
          have hfailure : failure? (r :: rest) = failure? rest := by
            rw [failure?, failure?, Resource.firstFailing_cons_of_acquired rest hr,
              List.getElem?_cons_succ]
          rw [Resource.firstFailing_cons_of_acquired rest hr, hfailure, List.length_cons, hcount,
            List.range'_succ, hlength, ← hmark]
          simp only [acquireEach, hr, ih, List.map_cons, List.append_assoc, List.singleton_append]

/-! ## Release -/

/-- The loop of release adds the releases of the resources it goes through. -/
theorem foldl_releaseNext
    (visited : List (Resource × Nat)) (t : Trace) :
    visited.foldl releaseNext t =
      Trace.after t.events (releaseAll t.outcome (visited.map fun (r, i) => (i, r.onRelease))) := by
  induction visited generalizing t with
  | nil => simp [releaseAll, Trace.after]
  | cons v visited ih =>
      obtain ⟨r, i⟩ := v
      rw [List.foldl_cons, ih]
      simp [releaseAll, releaseNext, Trace.after]

/-- What the plan releases below the mark is what acquisition has left held. -/
theorem held_acquireAll_eq_visit
    (resources : List Resource) :
    (acquireAll 0 [] resources).held =
      (visit resources
        ((ofLength resources.length).releasesAfterFailure (firstFailing resources))).map
        fun (r, i) => (i, r.onRelease) := by
  have hmark : firstFailing resources ≤ resources.length :=
    Resource.firstFailing_le_length resources
  have hlength : (resources.take (firstFailing resources)).length = firstFailing resources :=
    List.length_take_of_le hmark
  rw [releasesAfterFailure_ofLength hmark, visit_reverse, visit_range_take resources hmark,
    held_acquireAll, List.append_nil, List.map_reverse, List.zipIdx_eq_zip_range', hlength,
    List.zip_eq_zipWith, List.zip_eq_zipWith, List.zipWith_comm, List.zipWith_map_left,
    List.map_zipWith]

/-- The two loops over the plan of the resources are the reference run. -/
theorem run_ofLength_eq_runScoped
    (resources : List Resource) (body : Outcome) :
    (ofLength resources.length).run resources body = runScoped resources body := by
  have hacquired :
      acquireEach (visit resources (ofLength resources.length).acquire)
          ⟨[], resources.length, body⟩ =
        ⟨(acquireAll 0 [] resources).events, firstFailing resources,
          (failure? resources).elim body .exception⟩ := by
    have hloop := acquireEach_zipIdx resources 0 [] body
    rw [Nat.zero_add, Nat.zero_add, List.nil_append, ← events_acquireAll 0 []] at hloop
    rw [visit_acquire_ofLength, hloop]
  rw [run, hacquired, foldl_releaseNext, ← held_acquireAll_eq_visit, runScoped,
    failure_acquireAll]
  have hbody := Resource.failure?_eq_none_iff resources
  cases hfailure : failure? resources with
  | none => simp [hbody.mp hfailure]
  | some e =>
      have hfails : firstFailing resources ≠ resources.length :=
        fun hall => Option.some_ne_none e (hfailure.symm.trans (hbody.mpr hall))
      simp [hfails]

end Plan

end Bracket
