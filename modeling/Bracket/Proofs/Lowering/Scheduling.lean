import Bracket.Proofs.Lowering.Names
import Bracket.Proofs.Outcome.Scheduling

/-!
# Lowering by plan

A scoped statement may also be lowered by going through the positions of a plan.  One loop
in the order of acquisition checks and lowers the resources and gives each its number, the
first number that was reserved plus its position.  A second one in the order of release
wraps the body from the inside out, since what is released first stands innermost.  This
is the lowering of the statement, which nests expansions by recursion on the resources.
-/

namespace Bracket

namespace Context

/-- Hold resource `n` around statements. -/
def expandItem (c : Context) (isAsync : Bool) (n : Nat) (item : Item) (inner : List Stmt) :
    Except LoweringError (List Stmt) :=
  if c.conventions.expansion = .protectedCall then c.expandProtected n item inner
  else .ok (c.expandGuarded isAsync n item inner)

theorem expandItems_eq_bind_expandItem
    (c : Context) (isAsync : Bool) (n : Nat) (item : Item) (rest : List Item)
    (inner : List Stmt) :
    c.expandItems isAsync n (item :: rest) inner =
      (do
        let held ← c.expandItems isAsync (n + 1) rest inner
        c.expandItem isAsync n item held) := rfl

end Context

namespace Plan

/-- Lower the resources that are visited and number them from `base` on. -/
def prepare (c : Context) (inAsync : Bool) (base : Nat) (visited : List (Item × Nat)) :
    Lowering (List (Item × Nat)) :=
  visited.foldlM
    (fun prepared (item, i) => do
      let item ← item.lower c inAsync
      pure (prepared ++ [(item, base + i)]))
    []

/-- Wrap statements in the resources that are visited, the first of them innermost. -/
def wrap (c : Context) (isAsync : Bool) (visited : List ((Item × Nat) × Nat))
    (inner : List Stmt) : Except LoweringError (List Stmt) :=
  visited.foldlM (fun inner ((item, n), _) => c.expandItem isAsync n item inner) inner

end Plan

/-- Lower a scoped statement by going through the positions of its plan. -/
def Scoped.lowerByPlan (c : Context) (inAsync : Bool) (s : Scoped) : Lowering (List Stmt) := do
  let plan ← Plan.ofItems s.items
  c.checkSuspension s.isAsync inAsync
  let base ← Lowering.reserve plan.length
  let prepared ← Plan.prepare c inAsync base (Plan.visit s.items plan.acquire)
  let body ← Stmt.lowerList c inAsync s.body
  if c.conventions.expansion = .native then
    pure [.holding ⟨prepared.map Prod.fst, body, s.isAsync⟩]
  else Plan.wrap c s.isAsync (Plan.visit prepared plan.release) body

namespace Plan

variable {c : Context}

/-- The loop of preparation adds to what is prepared already what the recursion lowers. -/
theorem prepare_loop
    (inAsync : Bool) (base i : Nat) (items : List Item) (prepared : List (Item × Nat)) :
    (items.zipIdx i).foldlM
        (fun prepared (item, i) => do
          let item ← item.lower c inAsync
          pure (prepared ++ [(item, base + i)]))
        prepared =
      (do
        let items ← Item.lowerList c inAsync items
        pure (prepared ++ items.zipIdx (base + i)) : Lowering (List (Item × Nat))) := by
  induction items generalizing i prepared with
  | nil => simp [Item.lowerList]
  | cons item items ih =>
      simp only [List.zipIdx_cons, List.foldlM_cons, bind_assoc, pure_bind, ih, Item.lowerList,
        List.append_assoc, List.singleton_append, Nat.add_assoc]

theorem prepare_zipIdx
    (inAsync : Bool) (base : Nat) (items : List Item) :
    prepare c inAsync base items.zipIdx =
      (do
        let items ← Item.lowerList c inAsync items
        pure (items.zipIdx base)) :=
  prepare_loop inAsync base 0 items []

/-- The loop from right to left nests the expansions of the resources. -/
theorem wrap_reverse
    (isAsync : Bool) (base i : Nat) (items : List Item) (inner : List Stmt) :
    wrap c isAsync ((items.zipIdx base).zipIdx i).reverse inner =
      c.expandItems isAsync base items inner := by
  induction items generalizing base i with
  | nil => rfl
  | cons item items ih =>
      have hothers := ih (base + 1) (i + 1)
      rw [wrap] at hothers ⊢
      rw [List.zipIdx_cons, List.zipIdx_cons, List.reverse_cons, List.foldlM_append, hothers,
        c.expandItems_eq_bind_expandItem]
      simp

/-- Going through what is prepared, in the order of release, expands the statement. -/
theorem wrap_visit_release
    (isAsync : Bool) (base : Nat) {n : Nat} {items : List Item} (body : List Stmt)
    (hlength : items.length = n) (hstyle : c.conventions.expansion ≠ .native) :
    wrap c isAsync (visit (items.zipIdx base) (ofLength n).release) body =
      c.expandScoped base ⟨items, body, isAsync⟩ := by
  have hrelease := visit_release_ofLength (items.zipIdx base)
  rw [List.length_zipIdx, hlength] at hrelease
  rw [hrelease, wrap_reverse, Context.expandScoped, if_neg hstyle]

end Plan

/-- The two loops over the plan of a scoped statement are its lowering: they give the same
statements and the same next number, or the same error. -/
theorem Scoped.lowerByPlan_eq_lower
    (c : Context) (inAsync : Bool) (s : Scoped) :
    s.lowerByPlan c inAsync = s.lower c inAsync := by
  obtain ⟨items, body, isAsync⟩ := s
  funext k
  change (Scoped.lowerByPlan c inAsync ⟨items, body, isAsync⟩).run k =
    (Scoped.lower c inAsync ⟨items, body, isAsync⟩).run k
  rw [Scoped.lower_run, Scoped.lowerByPlan]
  by_cases hempty : items.isEmpty
  · simp only [Plan.ofItems, if_pos hempty]
    rfl
  · have hcount : (Plan.ofLength items.length).length = items.length := List.length_range
    have hok {α β : Type} (a : α) (f : α → Except LoweringError β) :
        (Except.ok a >>= f) = f a := rfl
    simp only [Plan.ofItems, if_neg hempty, StateT.run_bind, Lowering.lift_run,
      Lowering.reserve_run, hok, hcount, Plan.visit_acquire_ofLength, Plan.prepare_zipIdx,
      StateT.run_pure, bind_assoc, pure_bind]
    refine congrArg (c.checkSuspension isAsync inAsync >>= ·) (funext fun _ => ?_)
    -- The loop of release looks up what is prepared, so its length matters.
    cases hitems : (Item.lowerList c inAsync items).run (k + items.length) with
    | error e => rfl
    | ok p =>
        obtain ⟨items', i⟩ := p
        have hlength : items'.length = items.length :=
          (Item.lowersItem_of_lowerList hitems).1
        rw [hok, hok]
        refine congrArg ((Stmt.lowerList c inAsync body).run i >>= ·) (funext fun q => ?_)
        by_cases hstyle : c.conventions.expansion = .native
        · rw [if_pos hstyle, Context.expandScoped, if_pos hstyle, List.zipIdx_map_fst]
          rfl
        · rw [if_neg hstyle, Lowering.lift_run,
            Plan.wrap_visit_release isAsync k q.1 hlength hstyle]

end Bracket
