import Bracket.Lowering.Basic

/-!
# Opening lowering computations

A lowering computation that succeeds is taken apart step by step: each step has a
result and a number of the next resource, and so has the rest.
-/

namespace Bracket

theorem Except.bind_eq_ok
    {ε α β : Type} {x : Except ε α} {f : α → Except ε β} {b : β} :
    (x >>= f) = .ok b ↔ ∃ a, x = .ok a ∧ f a = .ok b := by
  cases x with
  | error e => simp [bind, Except.bind]
  | ok a => simp [bind, Except.bind]

namespace Lowering

variable {α β : Type}

theorem bind_eq_ok
    {m : Lowering α} {f : α → Lowering β} {k : Nat} {r : β × Nat} :
    (m >>= f).run k = .ok r ↔ ∃ a j, m.run k = .ok (a, j) ∧ (f a).run j = .ok r := by
  rw [StateT.run_bind, Except.bind_eq_ok]
  constructor
  · rintro ⟨⟨a, j⟩, hm, hf⟩
    exact ⟨a, j, hm, hf⟩
  · rintro ⟨a, j, hm, hf⟩
    exact ⟨(a, j), hm, hf⟩

theorem pure_eq_ok
    {a : α} {k : Nat} {r : α × Nat} :
    (pure a : Lowering α).run k = .ok r ↔ r = (a, k) := by
  rw [StateT.run_pure]
  constructor
  · intro h
    exact (Except.ok.inj h).symm
  · rintro rfl
    rfl

theorem lift_run
    (x : Except LoweringError α) (k : Nat) :
    (liftM x : Lowering α).run k = (x >>= fun a => pure (a, k)) := rfl

theorem lift_eq_ok
    {x : Except LoweringError α} {k : Nat} {r : α × Nat} :
    (liftM x : Lowering α).run k = .ok r ↔ ∃ a, x = .ok a ∧ r = (a, k) := by
  rw [lift_run, Except.bind_eq_ok]
  constructor
  · rintro ⟨a, ha, hr⟩
    exact ⟨a, ha, (Except.ok.inj hr).symm⟩
  · rintro ⟨a, ha, rfl⟩
    exact ⟨a, ha, rfl⟩

theorem reserve_run (n k : Nat) : (reserve n).run k = .ok (k, k + n) := rfl

end Lowering

/-- The lowering of a scoped statement, step by step. -/
theorem Scoped.lower_run
    (c : Context) (inAsync : Bool) (items : List Item) (body : List Stmt) (isAsync : Bool)
    (k : Nat) :
    (Scoped.lower c inAsync ⟨items, body, isAsync⟩).run k =
      if items.isEmpty then .error .emptyStatement
      else do
        c.checkSuspension isAsync inAsync
        let p ← (Item.lowerList c inAsync items).run (k + items.length)
        let q ← (Stmt.lowerList c inAsync body).run p.2
        let code ← c.expandScoped k ⟨p.1, q.1, isAsync⟩
        return (code, q.2) := by
  rw [Scoped.lower]
  by_cases hempty : items.isEmpty
  · rw [if_pos hempty, if_pos hempty]
    rfl
  · rw [if_neg hempty, if_neg hempty]
    simp only [StateT.run_bind, Lowering.lift_run, Lowering.reserve_run, bind_assoc]
    rfl

/-- What a scoped statement becomes, if it can be lowered. -/
theorem Scoped.lower_eq_ok
    {c : Context} {inAsync : Bool} {s : Scoped} {k j : Nat} {code : List Stmt} :
    (s.lower c inAsync).run k = .ok (code, j) ↔
      s.items ≠ [] ∧ c.checkSuspension s.isAsync inAsync = .ok () ∧
        ∃ items body i,
          (Item.lowerList c inAsync s.items).run (k + s.items.length) = .ok (items, i) ∧
          (Stmt.lowerList c inAsync s.body).run i = .ok (body, j) ∧
          c.expandScoped k ⟨items, body, s.isAsync⟩ = .ok code := by
  obtain ⟨items, body, isAsync⟩ := s
  rw [Scoped.lower_run]
  by_cases hempty : items.isEmpty
  · have hnil : items = [] := List.isEmpty_iff.mp hempty
    simp [hnil]
  · have hne : items ≠ [] := fun h => hempty (List.isEmpty_iff.mpr h)
    rw [if_neg hempty, Except.bind_eq_ok]
    simp only [Except.bind_eq_ok]
    constructor
    · rintro ⟨⟨⟩, hsuspend, ⟨items', i⟩, hitems, ⟨body', j'⟩, hbody, code', hcode, hr⟩
      cases hr
      exact ⟨hne, hsuspend, items', body', i, hitems, hbody, hcode⟩
    · rintro ⟨-, hsuspend, items', body', i, hitems, hbody, hcode⟩
      exact ⟨(), hsuspend, (items', i), hitems, (body', j), hbody, code, hcode, rfl⟩

end Bracket
