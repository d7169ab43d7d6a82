import Bracket.Proofs.Target.Lua

/-!
# Numbers of local variables

Printing Lua takes numbers for made-up local variables from a supply.  The next number never
goes back, whatever is printed, so a number that is taken is not taken again by the code that
follows.
-/

namespace Bracket

namespace Lua

open Text (Doc)

/-- Printing does not take numbers back. -/
def Counts {α : Type} (p : Printing α) : Prop := ∀ n, n ≤ (p.run n).2

namespace Counts

variable {α β : Type}

theorem pure (a : α) : Counts (Pure.pure a : Printing α) := fun n => Nat.le_refl n

theorem bind
    {p : Printing α} {k : α → Printing β} (hp : Counts p) (hk : ∀ a, Counts (k a)) :
    Counts (p >>= k) :=
  fun n => Nat.le_trans (hp n) (hk (p.run n).1 (p.run n).2)

theorem map
    {p : Printing α} (hp : Counts p) (f : α → β) :
    Counts (do
      let a ← p
      Pure.pure (f a)) :=
  hp.bind fun a => .pure (f a)

theorem fresh (count : Nat) : Counts (fresh count) := fun n => Nat.le_add_right n count

theorem loopBody
    {body : Nat → Printing Doc} (d : Nat) (label : Bool) (hbody : ∀ d, Counts (body d)) :
    Counts (loopBody d label body none) := by
  cases label with
  | false => exact hbody _
  | true => exact (hbody _).map _

theorem loopBody_update
    {body : Nat → Printing Doc} {update : Printing Doc} (d : Nat) (label : Bool)
    (hbody : ∀ d, Counts (body d)) (hupdate : Counts update) :
    Counts (Lua.loopBody d label body (some update)) := by
  cases label with
  | false => exact (hbody _).bind fun _ => hupdate.map _
  | true => exact (hbody _).bind fun _ => hupdate.map _

end Counts

mutual

theorem le_destructure
    (d : Nat) :
    (p : Pattern) → (first next : Nat) → (source : Doc) →
      next ≤ (destructure d first next source p).2
  | .name x, first, next, source => by
      exact Nat.le_of_eq (by rw [destructure])
  | .tuple slots, first, next, source => by
      rw [destructure]
      exact le_destructureNested d slots first next

theorem le_destructureNested
    (d : Nat) :
    (ps : List Pattern) → (first next : Nat) → next ≤ (destructureNested d first next ps).2
  | [], first, next => by
      exact Nat.le_of_eq (by rw [destructureNested])
  | p :: ps, first, next => by
      rw [destructureNested]
      split
      · have hinner := le_destructure d p next (next + nestedCount p) [.text (slotName first)]
        have hrest := le_destructureNested d ps (first + 1)
          (destructure d next (next + nestedCount p) [.text (slotName first)] p).2
        exact Nat.le_trans (Nat.le_add_right _ _) (Nat.le_trans hinner hrest)
      · exact le_destructureNested d ps first next

end

mutual

/-- Printing an expression does not take numbers back. -/
theorem counts_expr : (e : Expr) → (d : Nat) → Counts (expr d e)
  | .literal l, d => by
      rw [expr]
      exact .pure _
  | .ident x, d => by
      rw [expr]
      exact .pure _
  | .binary l op r, d => by
      rw [expr]
      exact (counts_expr l d).bind fun _ => (counts_expr r d).map _
  | .unary op e, d => by
      rw [expr]
      exact (counts_expr e d).map _
  | .call f args, d => by
      rw [expr]
      exact (counts_expr f d).bind fun _ => (counts_exprs args d).map _
  | .methodCall r m args, d => by
      rw [expr]
      exact (counts_expr r d).bind fun _ => (counts_exprs args d).map _
  | .member o p computed, d => by
      rw [expr]
      exact (counts_expr o d).bind fun _ => (counts_expr p d).map _
  | .array es, d => by
      rw [expr]
      exact (counts_exprs es d).map _
  | .object ps, d => by
      rw [expr]
      exact (counts_pairs ps d).map _
  | .function ⟨_, params, body, _⟩, d => by
      rw [expr]
      exact (counts_stmts body (d + 1)).map _
  | .conditional t c a, d => by
      rw [expr]
      exact (counts_expr t d).bind fun _ => (counts_expr c d).bind fun _ => (counts_expr a d).map _
  | .assign t v, d => by
      rw [expr]
      exact (counts_expr t d).bind fun _ => (counts_expr v d).map _
  | .await e, d => by
      rw [expr]
      exact counts_expr e d

theorem counts_exprs : (es : List Expr) → (d : Nat) → Counts (exprs d es)
  | [], d => by
      rw [exprs]
      exact .pure _
  | e :: es, d => by
      rw [exprs]
      exact (counts_expr e d).bind fun _ => (counts_exprs es d).map _

theorem counts_pairs : (ps : List (String × Expr)) → (d : Nat) → Counts (pairs d ps)
  | [], d => by
      rw [pairs]
      exact .pure _
  | (_, e) :: ps, d => by
      rw [pairs]
      exact (counts_expr e d).bind fun _ => (counts_pairs ps d).map _

theorem counts_stmt : (s : Stmt) → (d : Nat) → (bare : Bool) → Counts (stmt d bare s)
  | .expr e, d, bare => by
      rw [stmt]
      exact (counts_expr e d).map _
  | .declare x none m, d, bare => by
      rw [stmt, initializer]
      exact .pure _
  | .declare x (some e) m, d, bare => by
      rw [stmt, initializer]
      exact ((counts_expr e d).map _).map _
  | .destructure p i, d, bare => by
      rw [stmt]
      refine (Counts.fresh _).bind fun first => (counts_expr i d).bind fun source => ?_
      exact fun n => le_destructure d p first n source
  | .block b, d, bare => by
      rw [stmt]
      split
      · exact counts_stmts b d
      · exact (counts_stmts b (d + 1)).map _
  | .ifElse t c a, d, bare => by
      rw [stmt]
      exact (counts_expr t d).bind fun _ => (counts_stmt c (d + 1) true).bind fun _ =>
        (counts_elseBranch a d).map _
  | .whileLoop t b, d, bare => by
      rw [stmt]
      exact (counts_expr t d).bind fun _ => (Counts.loopBody d _ (counts_stmt b · true)).map _
  | .forLoop i t none b, d, bare => by
      rw [stmt_forLoop]
      exact (counts_initDoc i (d + 1)).bind fun _ => (counts_optionalDoc t (d + 1) _).bind fun _ =>
        (Counts.loopBody (d + 1) _ (counts_stmt b · true)).map _
  | .forLoop i t (some u) b, d, bare => by
      rw [stmt_forLoop]
      exact (counts_initDoc i (d + 1)).bind fun _ => (counts_optionalDoc t (d + 1) _).bind fun _ =>
        (Counts.loopBody_update (d + 1) _ (counts_stmt b · true) (counts_expr u (d + 2))).map _
  | .forEach x i b, d, bare => by
      rw [stmt]
      exact (counts_expr i d).bind fun _ => (Counts.loopBody d _ (counts_stmt b · true)).map _
  | .ret none, d, bare => by
      rw [stmt]
      exact .pure _
  | .ret (some e), d, bare => by
      rw [stmt]
      exact (counts_expr e d).map _
  | .breakLoop, d, bare => by
      rw [stmt]
      exact .pure _
  | .continueLoop, d, bare => by
      rw [stmt]
      exact .pure _
  | .throw e, d, bare => by
      rw [stmt]
      exact (counts_expr e d).map _
  | .tryCatch b p c f, d, bare => by
      rw [stmt_tryCatch]
      exact (Counts.fresh 2).bind fun _ => (counts_stmt b (d + 1) true).bind fun _ =>
        (counts_handlerDoc c d _ _ _).bind fun _ => (counts_finalizerDoc f d).map _
  | .function ⟨name, params, body, _⟩, d, bare => by
      rw [stmt]
      exact (counts_stmts body (d + 1)).map _
  | .holding _, d, bare => by
      rw [stmt]
      exact .pure _

theorem counts_stmts : (ss : List Stmt) → (d : Nat) → Counts (stmts d ss)
  | [], d => by
      rw [stmts]
      exact .pure _
  | s :: ss, d => by
      rw [stmts]
      exact (counts_stmt s d false).bind fun _ => (counts_stmts ss d).map _

theorem counts_optionalDoc :
    (e : Option Expr) → (d : Nat) → (default : String) → Counts (optionalDoc d default e)
  | none, _, _ => .pure _
  | some e, d, _ => counts_expr e d

theorem counts_initDoc : (i : Option Stmt) → (d : Nat) → Counts (initDoc d i)
  | none, _ => .pure _
  | some i, d => counts_stmt i d false

theorem counts_handlerDoc :
    (c : Option Stmt) → (d : Nat) → (ok err param : String) →
      Counts (handlerDoc d ok err param c)
  | none, _, _, _, _ => .pure _
  | some c, d, _, _, _ => (counts_stmt c (d + 2) true).map _

theorem counts_finalizerDoc : (f : Option Stmt) → (d : Nat) → Counts (finalizerDoc d f)
  | none, _ => .pure _
  | some f, d => counts_stmt f d true

theorem counts_elseBranch : (s : Option Stmt) → (d : Nat) → Counts (elseBranch d s)
  | none, d => by
      rw [elseBranch]
      exact .pure _
  | some (.ifElse t c a), d => by
      rw [elseBranch]
      exact (counts_expr t d).bind fun _ => (counts_stmt c (d + 1) true).bind fun _ =>
        (counts_elseBranch a d).map _
  | some (.expr _), d | some (.declare ..), d | some (.destructure ..), d | some (.block _), d
  | some (.whileLoop ..), d | some (.forLoop ..), d | some (.forEach ..), d | some (.ret _), d
  | some .breakLoop, d | some .continueLoop, d | some (.throw _), d | some (.tryCatch ..), d
  | some (.function _), d | some (.holding _), d =>
      (counts_stmt _ (d + 1) true).map _

end

end Lua

end Bracket
