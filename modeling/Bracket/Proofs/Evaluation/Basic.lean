import Bracket.Tree.Pattern

/-!
# Values that patterns take apart

A component is a value as far as patterns can see it: a sequence of components, or something
that has no parts.  Matching a pattern gives every name of the pattern the component that
stands in its place; a tuple takes as many elements of a sequence as it has slots.

Variables hold components.  What a list of bindings does to them is what its last binding of
each name says, so bindings of different names do not disturb each other.
-/

namespace Bracket

/-- A value as far as patterns can see it. -/
inductive Component (α : Type) where
  | sequence (elements : List (Component α))
  | atom (value : α)

/-- Names with the components that they are bound to, in the order of binding. -/
abbrev Bindings (α : Type) := List (String × Component α)

namespace Pattern

variable {α : Type}

mutual

/-- The components that a pattern gives to its names, unless a sequence is missing or has
fewer elements than a tuple has slots. -/
def components? : Pattern → Component α → Option (Bindings α)
  | .name x, v => some [(x, v)]
  | .tuple slots, .sequence vs => componentsList? slots vs
  | .tuple _, .atom _ => none

/-- The components for slots and the elements of a sequence from left to right. -/
def componentsList? : List Pattern → List (Component α) → Option (Bindings α)
  | [], _ => some []
  | _ :: _, [] => none
  | p :: ps, v :: vs => do
      let first ← components? p v
      let rest ← componentsList? ps vs
      some (first ++ rest)

end

theorem componentsList?_cons_eq_some
    {p : Pattern} {ps : List Pattern} {vs : List (Component α)} {bs : Bindings α} :
    componentsList? (p :: ps) vs = some bs ↔
      ∃ v rest first others, vs = v :: rest ∧ p.components? v = some first ∧
        componentsList? ps rest = some others ∧ bs = first ++ others := by
  cases vs with
  | nil => simp [componentsList?]
  | cons v vs =>
      simp only [componentsList?, Option.bind_eq_bind, Option.bind_eq_some_iff, Option.some.injEq,
        List.cons.injEq]
      constructor
      · rintro ⟨first, hfirst, others, hothers, rfl⟩
        exact ⟨v, vs, first, others, ⟨rfl, rfl⟩, hfirst, hothers, rfl⟩
      · rintro ⟨_, _, first, others, ⟨rfl, rfl⟩, hfirst, hothers, rfl⟩
        exact ⟨first, hfirst, others, hothers, rfl⟩

theorem length_le_of_componentsList
    {ps : List Pattern} {vs : List (Component α)} {bs : Bindings α}
    (h : componentsList? ps vs = some bs) : ps.length ≤ vs.length := by
  induction ps generalizing vs bs with
  | nil => exact Nat.zero_le _
  | cons p ps ih =>
      obtain ⟨v, rest, _, _, rfl, -, hothers, -⟩ := componentsList?_cons_eq_some.mp h
      exact Nat.succ_le_succ (ih hothers)

theorem components?_tuple_eq_some
    {slots : List Pattern} {v : Component α} {bs : Bindings α} :
    (tuple slots).components? v = some bs ↔
      ∃ vs, v = .sequence vs ∧ componentsList? slots vs = some bs := by
  cases v with
  | sequence vs => simp [components?]
  | atom a => simp [components?]

mutual

/-- Matching binds the names of a pattern from left to right. -/
theorem map_fst_components :
    (p : Pattern) → {v : Component α} → {bs : Bindings α} → p.components? v = some bs →
      bs.map Prod.fst = p.names
  | .name x, v, bs, h => by
      cases h
      rfl
  | .tuple slots, v, bs, h => by
      obtain ⟨vs, -, hslots⟩ := components?_tuple_eq_some.mp h
      rw [names]
      exact map_fst_componentsList slots hslots

theorem map_fst_componentsList :
    (ps : List Pattern) → {vs : List (Component α)} → {bs : Bindings α} →
      componentsList? ps vs = some bs → bs.map Prod.fst = namesList ps
  | [], vs, bs, h => by
      rw [componentsList?] at h
      cases h
      rfl
  | p :: ps, vs, bs, h => by
      obtain ⟨v, rest, first, others, -, hfirst, hothers, rfl⟩ :=
        componentsList?_cons_eq_some.mp h
      rw [List.map_append, namesList, map_fst_components p hfirst,
        map_fst_componentsList ps hothers]

end

end Pattern

/-! ## Variables -/

/-- The components that variables hold. -/
def Variables (α : Type) := String → Option (Component α)

namespace Variables

variable {α : Type} {x : String}

/-- The variables after binding one of them. -/
def set (vars : Variables α) (x : String) (v : Component α) : Variables α :=
  fun y => if y = x then some v else vars y

/-- The variables after bindings, one after the other. -/
def bind (vars : Variables α) : Bindings α → Variables α
  | [] => vars
  | (x, v) :: bs => (vars.set x v).bind bs

theorem bind_append
    (vars : Variables α) (bs bs' : Bindings α) :
    vars.bind (bs ++ bs') = (vars.bind bs).bind bs' := by
  induction bs generalizing vars with
  | nil => rfl
  | cons b bs ih => exact ih (vars.set b.1 b.2)

/-- Bindings of other names do not matter to a name. -/
theorem bind_of_not_mem
    {bs : Bindings α} (vars : Variables α) (h : x ∉ bs.map Prod.fst) : vars.bind bs x = vars x := by
  induction bs generalizing vars with
  | nil => rfl
  | cons b bs ih =>
      obtain ⟨hne, hrest⟩ := not_or.mp (mt List.mem_cons.mpr h)
      rw [bind, ih _ hrest]
      exact if_neg hne

/-- A name that is bound once keeps the component that it is bound to. -/
theorem bind_of_mem
    {bs : Bindings α} {v : Component α} (vars : Variables α) (hdistinct : (bs.map Prod.fst).Nodup)
    (h : (x, v) ∈ bs) : vars.bind bs x = some v := by
  induction bs generalizing vars with
  | nil => exact nomatch h
  | cons b bs ih =>
      obtain ⟨hfirst, hrest⟩ := List.nodup_cons.mp hdistinct
      rw [bind]
      rcases List.mem_cons.mp h with rfl | h
      · rw [bind_of_not_mem _ hfirst]
        exact if_pos rfl
      · exact ih _ hrest h

end Variables

end Bracket
