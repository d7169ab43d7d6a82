import Bracket.Target.Lua

/-!
# Rules for printers

A printer of Lua code takes numbers for the local variables that it makes up, so its result
depends on the first number that is free.  `Gives` is a property of all results of a printer.
`Agree` compares two printers: from each number on they take the same numbers, and their
results are related.
-/

namespace Bracket

namespace Lua

open Text (Doc)

variable {α β γ δ : Type}

/-- Every result of the printer has the property. -/
def Gives (P : α → Prop) (p : Printing α) : Prop := ∀ n, P (p.run n).1

namespace Gives

variable {P : α → Prop} {Q : β → Prop}

theorem pure {a : α} (h : P a) : Gives P (Pure.pure a : Printing α) := fun _ => h

theorem bind
    {p : Printing α} {k : α → Printing β} (hp : Gives P p) (hk : ∀ a, P a → Gives Q (k a)) :
    Gives Q (p >>= k) :=
  fun n => hk (p.run n).1 (hp n) (p.run n).2

/-- Nothing is asked of the first result. -/
theorem of_rest
    {p : Printing α} {k : α → Printing β} (hk : ∀ a, Gives Q (k a)) : Gives Q (p >>= k) :=
  fun n => hk (p.run n).1 (p.run n).2

theorem map
    {p : Printing α} {f : α → β} (hp : Gives P p) (hf : ∀ a, P a → Q (f a)) :
    Gives Q (do
      let a ← p
      Pure.pure (f a)) :=
  hp.bind fun a ha => .pure (hf a ha)

theorem and
    {P' : α → Prop} {p : Printing α} (h : Gives P p) (h' : Gives P' p) :
    Gives (fun a => P a ∧ P' a) p :=
  fun n => ⟨h n, h' n⟩

end Gives

/-- The printers take the same numbers, and their results are related. -/
def Agree (R : α → β → Prop) (p : Printing α) (q : Printing β) : Prop :=
  ∀ n, R (p.run n).1 (q.run n).1 ∧ (p.run n).2 = (q.run n).2

namespace Agree

variable {R : α → β → Prop} {S : γ → δ → Prop}

theorem refl (p : Printing α) : Agree Eq p p := fun _ => ⟨rfl, rfl⟩

theorem pure
    {a : α} {b : β} (h : R a b) : Agree R (Pure.pure a : Printing α) (Pure.pure b) :=
  fun _ => ⟨h, rfl⟩

theorem bind
    {p : Printing α} {q : Printing β} {k : α → Printing γ} {l : β → Printing δ}
    (hpq : Agree R p q) (hkl : ∀ a b, R a b → Agree S (k a) (l b)) :
    Agree S (p >>= k) (q >>= l) := by
  intro n
  obtain ⟨hresult, hnumber⟩ := hpq n
  have hrest := hkl _ _ hresult (p.run n).2
  rw [hnumber] at hrest
  rw [StateT.run_bind, StateT.run_bind]
  dsimp only [Bind.bind]
  rw [hnumber]
  exact hrest

theorem map
    {p : Printing α} {q : Printing β} {f : α → γ} {g : β → δ} (hpq : Agree R p q)
    (hfg : ∀ a b, R a b → S (f a) (g b)) :
    Agree S (do
      let a ← p
      Pure.pure (f a)) (do
      let b ← q
      Pure.pure (g b)) :=
  hpq.bind fun a b hab => .pure (hfg a b hab)

theorem map_left
    {p : Printing α} {q : Printing β} {T : γ → β → Prop} {f : α → γ} (hpq : Agree R p q)
    (hf : ∀ a b, R a b → T (f a) b) :
    Agree T (do
      let a ← p
      Pure.pure (f a)) q :=
  fun n => ⟨hf _ _ (hpq n).1, (hpq n).2⟩

end Agree

/-! ## Access to members -/

/-- The name of a member that stands behind a point. -/
def pointName? (computed : Bool) : Expr → Option String
  | .literal (.string s) => if !computed && Text.isPlainIdentifier s then some s else none
  | _ => none

theorem memberAccess_eq
    (computed : Bool) (property : Expr) (doc : Doc) :
    memberAccess computed property doc =
      match pointName? computed property with
      | some s => [.text ("." ++ s)]
      | none => .text "[" :: doc ++ [.text "]"] := by
  cases property with
  | literal l =>
      cases l with
      | string s =>
          simp only [memberAccess, pointName?]
          cases !computed && Text.isPlainIdentifier s <;> rfl
      | _ => rfl
  | _ => rfl

/-- A name behind a point is that of a literal, and it is plain. -/
theorem pointName?_eq_some
    {computed : Bool} {property : Expr} {s : String} (h : pointName? computed property = some s) :
    property = .literal (.string s) ∧ Text.isPlainIdentifier s = true := by
  unfold pointName? at h
  split at h
  · split at h
    · rename_i hplain
      rw [Bool.and_eq_true] at hplain
      cases h
      exact ⟨rfl, hplain.2⟩
    · exact absurd h (by simp)
  · exact absurd h (by simp)

end Lua

end Bracket
