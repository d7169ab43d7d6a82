import Bracket.Outcome.Basic

/-!
# Suppression in closed form

The outcome of releases depends on little of what they signal.  A release that raises
makes everything before it irrelevant, so the last such release counts, and whether an
exception is handled behind it.  Where no release raises, an exception is handled or not,
and every other outcome stays.

The closed form follows the releases: to take one off the front is to start from another
outcome.  What a release is shown is then the closed form for the releases before it.
-/

namespace Bracket

namespace Signal

/-- The exception that a release raises. -/
def raised? : Signal → Option Fault
  | .replace e => some e
  | _ => none

/-- No release raises. -/
def Quiet (signals : List Signal) : Prop := ∀ s ∈ signals, s.raised? = none

instance (signals : List Signal) : Decidable (Quiet signals) :=
  inferInstanceAs (Decidable (∀ s ∈ signals, s.raised? = none))

/-- The signals behind the last release that raises, the last one first; all of them if no
release raises. -/
def sinceRaise (signals : List Signal) : List Signal :=
  signals.reverse.takeWhile fun s => s.raised?.isNone

/-- Either no release raises, or one of them is the last that does. -/
theorem quiet_or_last_raise
    (signals : List Signal) :
    Quiet signals ∨ ∃ front e back, signals = front ++ .replace e :: back ∧ Quiet back := by
  induction signals with
  | nil => exact .inl (by simp [Quiet])
  | cons s rest ih =>
      rcases ih with hquiet | ⟨front, e, back, rfl, hback⟩
      · cases hs : s with
        | replace e => exact .inr ⟨[], e, rest, rfl, hquiet⟩
        | handled | propagate => exact .inl (List.forall_mem_cons.mpr ⟨rfl, hquiet⟩)
      · exact .inr ⟨s :: front, e, back, rfl, hback⟩

end Signal

namespace Outcome

open Signal (Quiet sinceRaise)

/-- The outcome after releases, by the last of them that raises: its exception, unless a
later release handles it.  If no release raises, an exception is handled by any release
that handles one, and every other outcome stays. -/
def settled (o : Outcome) (signals : List Signal) : Outcome :=
  match signals.reverse.findSome? Signal.raised? with
  | some e => if .handled ∈ sinceRaise signals then .normal else .exception e
  | none => if o.propagating.isSome ∧ .handled ∈ signals then .normal else o

variable {o : Outcome} {signals back : List Signal}

theorem settled_of_quiet
    (h : Quiet signals) :
    o.settled signals =
      if o.propagating.isSome ∧ .handled ∈ signals then .normal else o := by
  have hnone : signals.reverse.findSome? Signal.raised? = none :=
    List.findSome?_eq_none_iff.mpr fun s hs => h s (List.mem_reverse.mp hs)
  rw [settled, hnone]

@[simp] theorem settled_nil (o : Outcome) : o.settled [] = o := by
  simp [settled]

theorem settled_of_last_raise
    (front : List Signal) (e : Fault) (hback : Quiet back) :
    o.settled (front ++ .replace e :: back) =
      if .handled ∈ back then .normal else .exception e := by
  have hquiet : ∀ s ∈ back.reverse, s.raised? = none :=
    fun s hs => hback s (List.mem_reverse.mp hs)
  have hreverse :
      (front ++ .replace e :: back).reverse = back.reverse ++ .replace e :: front.reverse := by
    simp
  have hlast : (front ++ .replace e :: back).reverse.findSome? Signal.raised? = some e := by
    rw [hreverse, List.findSome?_append, List.findSome?_eq_none_iff.mpr hquiet]
    rfl
  have hsince : sinceRaise (front ++ .replace e :: back) = back.reverse := by
    have hall : ∀ s ∈ back.reverse, s.raised?.isNone = true := by
      intro s hs
      rw [hquiet s hs]
      rfl
    rw [sinceRaise, hreverse, List.takeWhile_append_of_pos hall]
    simp [Signal.raised?]
  rw [settled, hlast, hsince]
  simp only [List.mem_reverse]

/-- A release may be taken off the front. -/
theorem settled_cons
    (o : Outcome) (s : Signal) (rest : List Signal) :
    o.settled (s :: rest) = (o.afterRelease s).settled rest := by
  rcases Signal.quiet_or_last_raise rest with hrest | ⟨front, e, back, rfl, hback⟩
  · rw [settled_of_quiet hrest]
    cases s with
    | replace e =>
        rw [← List.nil_append (.replace e :: rest), settled_of_last_raise [] e hrest]
        simp [afterRelease, propagating]
    | handled =>
        rw [settled_of_quiet (List.forall_mem_cons.mpr ⟨rfl, hrest⟩)]
        cases o <;> simp [afterRelease, propagating]
    | propagate =>
        rw [settled_of_quiet (List.forall_mem_cons.mpr ⟨rfl, hrest⟩)]
        exact ite_congr (by simp [afterRelease]) (fun _ => rfl) (fun _ => rfl)
  · -- What comes before the last release that raises does not matter on either side.
    rw [← List.cons_append, settled_of_last_raise _ e hback, settled_of_last_raise _ e hback]

/-- Releases lead to the closed form, and each of them is shown what propagates in the
closed form for those before it. -/
theorem afterReleases_eq
    (o : Outcome) (signals : List Signal) :
    o.afterReleases signals =
      ((List.range signals.length).map fun j => (o.settled (signals.take j)).propagating,
        o.settled signals) := by
  induction signals generalizing o with
  | nil => simp [afterReleases]
  | cons s rest ih =>
      have hrest :
          (List.range rest.length).map
              (fun j => ((o.afterRelease s).settled (rest.take j)).propagating) =
            (List.range rest.length).map
              (fun j => (o.settled ((s :: rest).take (j + 1))).propagating) := by
        simp only [List.take_succ_cons, settled_cons]
      rw [afterReleases, ih, settled_cons, List.length_cons, List.range_succ_eq_map, List.map_cons,
        List.map_map, List.take_zero, settled_nil]
      exact congrArg (fun seen => (o.propagating :: seen, _)) hrest

variable {exit : EarlyExit}

theorem settled_earlyExit
    (h : Quiet signals) : (earlyExit exit).settled signals = .earlyExit exit := by
  rw [settled_of_quiet h]
  simp [propagating]

/-- What propagates after an early exit was raised by a release. -/
theorem replace_mem_of_propagating
    {e : Fault} (h : ((earlyExit exit).settled signals).propagating = some e) :
    .replace e ∈ signals := by
  rcases Signal.quiet_or_last_raise signals with hquiet | ⟨front, e', back, rfl, hback⟩
  · rw [settled_earlyExit hquiet] at h
    exact nomatch h
  · rw [settled_of_last_raise front e' hback] at h
    by_cases hhandled : .handled ∈ back
    · rw [if_pos hhandled] at h
      exact nomatch h
    · rw [if_neg hhandled] at h
      cases h
      simp

/-- Releases in order.  The final outcome is the closed form, and each release is shown what
propagates in the closed form for those before it.  In particular an early exit outlives
releases that raise nothing, which are shown nothing, and a release is shown an exception
behind an early exit only if another one raised it. -/
theorem afterReleases_settles
    (o : Outcome) (signals : List Signal) :
    o.afterReleases signals =
        ((List.range signals.length).map fun j => (o.settled (signals.take j)).propagating,
          o.settled signals) ∧
      (∀ exit, Quiet signals →
        (earlyExit exit).afterReleases signals =
          (List.replicate signals.length none, .earlyExit exit)) ∧
      ∀ exit e, some e ∈ ((earlyExit exit).afterReleases signals).1 → .replace e ∈ signals := by
  refine ⟨afterReleases_eq o signals, ?_, ?_⟩
  · intro exit hquiet
    have hshown :
        (List.range signals.length).map
            (fun j => ((earlyExit exit).settled (signals.take j)).propagating) =
          List.replicate signals.length none := by
      refine List.eq_replicate_iff.mpr ⟨by simp, fun seen hseen => ?_⟩
      obtain ⟨j, -, rfl⟩ := List.mem_map.mp hseen
      have hbefore : Quiet (signals.take j) := fun s hs => hquiet s (List.mem_of_mem_take hs)
      rw [settled_earlyExit hbefore]
      rfl
    rw [afterReleases_eq, hshown, settled_earlyExit hquiet]
  · intro exit e hshown
    rw [afterReleases_eq] at hshown
    obtain ⟨j, -, hj⟩ := List.mem_map.mp hshown
    exact List.mem_of_mem_take (replace_mem_of_propagating hj)

/-- A break that no release replaces, and one that two releases replace. -/
theorem afterReleases_settles_of_break :
    (earlyExit .breaks).afterReleases [.handled, .propagate] =
        ([none, none], .earlyExit .breaks) ∧
      (earlyExit .breaks).afterReleases
          [.replace ⟨"first"⟩, .handled, .replace ⟨"second"⟩, .propagate] =
        ([none, some ⟨"first"⟩, none, some ⟨"second"⟩], .exception ⟨"second"⟩) := by
  constructor
  · exact (afterReleases_settles .normal [.handled, .propagate]).2.1 .breaks (by decide)
  · exact (afterReleases_settles (.earlyExit .breaks) _).1

end Outcome

end Bracket
