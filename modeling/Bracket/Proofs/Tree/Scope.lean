import Bracket.Proofs.Tree.Tokens

/-!
# What scopes cover

The scope of something that is introduced reaches to the end of the innermost block
around it.  Two questions about code come up together: does a scope last to the end of
the code, and does it cover a place inside.  Both are asked of things that stand for
tokens, such as tokens that are marked with an origin, and both are answered part by
part: a scope covers a place in `a ++ b` if it does so in one of the parts, or if it
lasts through `a` and the place is in `b`.
-/

namespace Bracket.Token

/-- Code that closes no block at all keeps those open that were. -/
theorem StaysOpen.of_not_closes
    {ts : List Token} (h : .closes ∉ ts) : StaysOpen ts := by
  intro part hpart
  have hnone : part.count .closes = 0 :=
    List.count_eq_zero.mpr fun hmem => h (hpart.subset hmem)
  omega

theorem Balanced.of_no_blocks
    {ts : List Token} (hopens : .opens ∉ ts) (hcloses : .closes ∉ ts) : Balanced ts := by
  constructor
  · exact .of_not_closes hcloses
  · rw [List.count_eq_zero.mpr hopens, List.count_eq_zero.mpr hcloses]

variable {α : Type} {view : α → Token} {P Q : α → Prop} {a b inner xs : List α} {x : α}

/-- Something with `P` is met, and its scope lasts to the end. -/
def Lasting (view : α → Token) (P : α → Prop) (xs : List α) : Prop :=
  ∃ earlier x since, xs = earlier ++ x :: since ∧ P x ∧ StaysOpen (since.map view)

/-- Something with `Q` stands in the scope of something with `P`. -/
def Covers (view : α → Token) (P Q : α → Prop) (xs : List α) : Prop :=
  ∃ before x after, xs = before ++ x :: after ∧ Q x ∧ Lasting view P before

/-- One place in two parts is in the first or in the second. -/
theorem append_eq_append_cons
    {l r : List α} (h : a ++ b = l ++ x :: r) :
    (∃ r', a = l ++ x :: r' ∧ r = r' ++ b) ∨ ∃ l', l = a ++ l' ∧ b = l' ++ x :: r := by
  rcases List.append_eq_append_iff.mp h with ⟨l', hl, hb⟩ | ⟨between, ha, hr⟩
  · exact .inr ⟨l', hl, hb⟩
  · cases between with
    | nil => exact .inr ⟨[], by simpa using ha.symm, by simpa using hr.symm⟩
    | cons y r' =>
        rw [List.cons_append, List.cons.injEq] at hr
        obtain ⟨rfl, hr⟩ := hr
        exact .inl ⟨r', ha, hr⟩

namespace Lasting

theorem exists_mem (h : Lasting view P xs) : ∃ x ∈ xs, P x := by
  obtain ⟨earlier, x, since, rfl, hx, -⟩ := h
  exact ⟨x, List.mem_append_right earlier List.mem_cons_self, hx⟩

theorem of_append
    (h : Lasting view P (a ++ b)) : Lasting view P a ∨ Lasting view P b := by
  obtain ⟨earlier, x, since, heq, hx, hsince⟩ := h
  rcases append_eq_append_cons heq with ⟨since', rfl, rfl⟩ | ⟨earlier', rfl, rfl⟩
  · rw [List.map_append] at hsince
    exact .inl ⟨earlier, x, since', rfl, hx, hsince.left⟩
  · exact .inr ⟨earlier', x, since, rfl, hx, hsince⟩

theorem append_right
    (h : Lasting view P a) (hb : StaysOpen (b.map view)) : Lasting view P (a ++ b) := by
  obtain ⟨earlier, x, since, rfl, hx, hsince⟩ := h
  refine ⟨earlier, x, since ++ b, by simp, hx, ?_⟩
  rw [List.map_append]
  exact hsince.append hb

theorem append_left
    (h : Lasting view P b) : Lasting view P (a ++ b) := by
  obtain ⟨earlier, x, since, rfl, hx, hsince⟩ := h
  exact ⟨a ++ earlier, x, since, by simp, hx, hsince⟩

theorem of_mem
    (hmem : x ∈ xs) (hx : P x) (hcloses : .closes ∉ xs.map view) : Lasting view P xs := by
  obtain ⟨earlier, since, rfl⟩ := List.append_of_mem hmem
  refine ⟨earlier, x, since, rfl, hx, .of_not_closes fun hmem => hcloses ?_⟩
  simp only [List.map_append, List.map_cons, List.mem_append, List.mem_cons]
  exact .inr (.inr hmem)

/-- A scope ends with the block around it. -/
theorem not_block
    {l r : α} (hbalanced : Balanced (xs.map view)) (hl : ¬P l) (hr : ¬P r)
    (hcloses : view r = .closes) : ¬Lasting view P ([l] ++ xs ++ [r]) := by
  rintro ⟨earlier, x, since, heq, hx, hsince⟩
  rcases append_eq_append_cons heq with ⟨since', heq', rfl⟩ | ⟨earlier', -, hlast⟩
  · rcases append_eq_append_cons heq' with ⟨since'', hfirst, -⟩ | ⟨earlier', -, rfl⟩
    · -- The place is the beginning of the block.
      have hmem : x ∈ [l] := hfirst ▸ List.mem_append_right earlier List.mem_cons_self
      exact hl (List.mem_singleton.mp hmem ▸ hx)
    · -- The place is inside: what follows it closes one block more than it opens.
      have hbefore := hbalanced.staysOpen ((earlier' ++ [x]).map view) (by simp)
      have hbehind := hsince ((since' ++ [r]).map view) List.prefix_rfl
      have hcount := hbalanced.count_eq
      have hopens : ([r].map view).count .opens = 0 := by simp [hcloses]
      have hone : ([r].map view).count .closes = 1 := by simp [hcloses]
      rw [List.append_cons, List.map_append, List.count_append, List.count_append] at hcount
      rw [List.map_append, List.count_append, List.count_append] at hbehind
      omega
  · have hmem : x ∈ [r] := hlast ▸ List.mem_append_right earlier' List.mem_cons_self
    exact hr (List.mem_singleton.mp hmem ▸ hx)

end Lasting

namespace Covers

theorem exists_mem_left (h : Covers view P Q xs) : ∃ x ∈ xs, P x := by
  obtain ⟨before, x, after, rfl, -, hlasting⟩ := h
  obtain ⟨y, hy, hP⟩ := hlasting.exists_mem
  exact ⟨y, List.mem_append_left (x :: after) hy, hP⟩

theorem exists_mem_right (h : Covers view P Q xs) : ∃ x ∈ xs, Q x := by
  obtain ⟨before, x, after, rfl, hx, -⟩ := h
  exact ⟨x, List.mem_append_right before List.mem_cons_self, hx⟩

theorem of_append
    (h : Covers view P Q (a ++ b)) :
    Covers view P Q a ∨ Covers view P Q b ∨ Lasting view P a ∧ ∃ x ∈ b, Q x := by
  obtain ⟨before, x, after, heq, hx, hlasting⟩ := h
  rcases append_eq_append_cons heq with ⟨after', rfl, -⟩ | ⟨before', rfl, rfl⟩
  · exact .inl ⟨before, x, after', rfl, hx, hlasting⟩
  · rcases hlasting.of_append with hlasting | hlasting
    · exact .inr (.inr ⟨hlasting, x, List.mem_append_right before' List.mem_cons_self, hx⟩)
    · exact .inr (.inl ⟨before', x, after, rfl, hx, hlasting⟩)

theorem append_right
    (h : Covers view P Q a) : Covers view P Q (a ++ b) := by
  obtain ⟨before, x, after, rfl, hx, hlasting⟩ := h
  exact ⟨before, x, after ++ b, by simp, hx, hlasting⟩

theorem append_left
    (h : Covers view P Q b) : Covers view P Q (a ++ b) := by
  obtain ⟨before, x, after, rfl, hx, hlasting⟩ := h
  exact ⟨a ++ before, x, after, by simp, hx, hlasting.append_left⟩

theorem of_lasting
    (ha : Lasting view P a) (hb : StaysOpen (b.map view)) (hmem : x ∈ b) (hx : Q x) :
    Covers view P Q (a ++ b) := by
  obtain ⟨before, after, rfl⟩ := List.append_of_mem hmem
  rw [List.map_append] at hb
  exact ⟨a ++ before, x, after, by simp, hx, ha.append_right hb.left⟩

/-- Nothing is covered where all that introduces stands behind all that could be. -/
theorem not_append
    (ha : ∀ x ∈ a, ¬P x) (hb : ∀ x ∈ b, ¬Q x) : ¬Covers view P Q (a ++ b) := by
  intro h
  rcases h.of_append with h | h | ⟨h, -⟩
  · obtain ⟨x, hx, hP⟩ := h.exists_mem_left
    exact ha x hx hP
  · obtain ⟨x, hx, hQ⟩ := h.exists_mem_right
    exact hb x hx hQ
  · obtain ⟨x, hx, hP⟩ := h.exists_mem
    exact ha x hx hP

/-- A block around code covers nothing more. -/
theorem block_iff
    {l r : α} (hl : ¬P l) (hr : ¬Q r) :
    Covers view P Q ([l] ++ xs ++ [r]) ↔ Covers view P Q xs := by
  have hopens : ¬∃ x ∈ [l], P x := by simpa using hl
  have hcloses : ¬∃ x ∈ [r], Q x := by simpa using hr
  constructor
  · intro h
    rcases h.of_append with h | h | ⟨-, h⟩
    · rcases h.of_append with h | h | ⟨h, -⟩
      · exact absurd h.exists_mem_left hopens
      · exact h
      · exact absurd h.exists_mem hopens
    · exact absurd h.exists_mem_right hcloses
    · exact absurd h hcloses
  · intro h
    exact h.append_left.append_right

/-- What introduces nothing adds no scope, before and behind code whose own scopes end. -/
theorem of_enclosed
    (ha : ∀ x ∈ a, ¬P x) (hb : ∀ x ∈ b, ¬P x) (hinner : ¬Lasting view P inner)
    (h : Covers view P Q (a ++ inner ++ b)) : Covers view P Q inner := by
  have hnot {ys : List α} (hys : ∀ x ∈ ys, ¬P x) : ¬∃ x ∈ ys, P x :=
    fun ⟨x, hx, hP⟩ => hys x hx hP
  rcases h.of_append with h | h | ⟨h, -⟩
  · rcases h.of_append with h | h | ⟨h, -⟩
    · exact absurd h.exists_mem_left (hnot ha)
    · exact h
    · exact absurd h.exists_mem (hnot ha)
  · exact absurd h.exists_mem_left (hnot hb)
  · rcases h.of_append with h | h
    · exact absurd h.exists_mem (hnot ha)
    · exact absurd h hinner

end Covers

end Bracket.Token
