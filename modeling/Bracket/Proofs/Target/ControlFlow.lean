import Bracket.Proofs.Target.Jumps

/-!
# Labels and returns in Lua code

A jump needs a label that it sees, and a return has to be the last statement of its block.
Whether the code of a program keeps these rules depends on where its `continue`s and returns
stand.

The label of a loop is set by a scan of its body, which follows blocks, branches and statements
that catch exceptions, but not the initialisers of counting loops.  The first main statement is
that a `continue` of a loop sees a label unless it is in a protected call inside of the loop, or
in an initialiser while nothing else makes the scan set a label.

A label or an update is written behind the body of its loop, in the same block unless there are
both.  The second main statement is that a return at the end of its statements is the last
statement of its block unless these are the body of a loop with one of the two.
-/

namespace Bracket

namespace Lua

/-! ## Labels -/

/-- Labels around a statement; `continues` says whether the scan finds a `continue` in it. -/
structure Scanned (continues : Bool) (c : Surroundings) : Prop where
  /-- No label is seen from inside of a protected call. -/
  hidden : c.inClosure = true → c.labelled = false
  /-- Where the scan gets to, a `continue` has a label. -/
  found : continues = true → c.inLoop = true → c.inClosure = false → c.inInit = false →
    c.labelled = true

namespace Scanned

variable {continues : Bool} {c : Surroundings}

theorem mono
    {continues' : Bool} (h : Scanned continues c) (hle : continues' = true → continues = true) :
    Scanned continues' c :=
  ⟨h.hidden, fun hc => h.found (hle hc)⟩

theorem top : Scanned continues .top := ⟨fun _ => rfl, fun _ h => absurd h (by decide)⟩

theorem inBlock (h : Scanned continues c) : Scanned continues c.inBlock := ⟨h.hidden, h.found⟩

theorem inFinally (h : Scanned continues c) : Scanned continues c.inFinally :=
  ⟨h.hidden, h.found⟩

theorem before
    (rest : List Stmt) (h : Scanned continues c) : Scanned continues (c.before rest) :=
  ⟨h.hidden, h.found⟩

/-- A loop gets a label if the scan finds a `continue` in its body. -/
theorem inBody
    (continues update : Bool) (c : Surroundings) :
    Scanned continues (c.inBody continues update) where
  hidden h := absurd h (by simp [Surroundings.inBody])
  found hc _ _ _ := by simp [Surroundings.inBody, hc]

theorem asInit
    {continues' : Bool} (h : Scanned continues c) : Scanned continues' c.asInit where
  hidden := h.hidden
  found _ _ _ hinit := absurd hinit (by simp [Surroundings.asInit])

theorem inGuarded {continues' : Bool} : Scanned continues' c.inGuarded where
  hidden _ := rfl
  found _ _ hclosure := absurd hclosure (by simp [Surroundings.inGuarded])

end Scanned

/-- Every `continue` among the sites has a label where the scan gets to. -/
def ScannedSites (sites : List Site) : Prop :=
  ∀ s ∈ sites, s.kind = .continues → Scanned true s.around

theorem scannedSites_nil : ScannedSites [] := fun _ h => absurd h List.not_mem_nil

theorem ScannedSites.append
    {sites sites' : List Site} (h : ScannedSites sites) (h' : ScannedSites sites') :
    ScannedSites (sites ++ sites') :=
  fun s hs => (List.mem_append.mp hs).elim (h s) (h' s)

mutual

theorem scannedSites_expr : (e : Expr) → ScannedSites e.sites
  | .literal _ | .ident _ => by
      rw [Expr.sites]
      exact scannedSites_nil
  | .binary l _ r | .assign l r => by
      rw [Expr.sites]
      exact (scannedSites_expr l).append (scannedSites_expr r)
  | .member o p _ => by
      rw [Expr.sites]
      exact (scannedSites_expr o).append (scannedSites_expr p)
  | .unary _ e | .await e => by
      rw [Expr.sites]
      exact scannedSites_expr e
  | .call f args | .methodCall f _ args => by
      rw [Expr.sites]
      exact (scannedSites_expr f).append (scannedSites_exprs args)
  | .array es => by
      rw [Expr.sites]
      exact scannedSites_exprs es
  | .object ps => by
      rw [Expr.sites]
      exact scannedSites_pairs ps
  | .function ⟨_, _, body, _⟩ => by
      rw [Expr.sites, Func.sites]
      exact scannedSites_stmts body .top
  | .conditional t c a => by
      rw [Expr.sites]
      exact (scannedSites_expr t).append ((scannedSites_expr c).append (scannedSites_expr a))

theorem scannedSites_exprs : (es : List Expr) → ScannedSites (Expr.sitesList es)
  | [] => by
      rw [Expr.sitesList]
      exact scannedSites_nil
  | e :: es => by
      rw [Expr.sitesList]
      exact (scannedSites_expr e).append (scannedSites_exprs es)

theorem scannedSites_optionalExpr : (e : Option Expr) → ScannedSites (Expr.sitesOption e)
  | none => by
      rw [Expr.sitesOption]
      exact scannedSites_nil
  | some e => by
      rw [Expr.sitesOption]
      exact scannedSites_expr e

theorem scannedSites_pairs : (ps : List (String × Expr)) → ScannedSites (Expr.sitesPairs ps)
  | [] => by
      rw [Expr.sitesPairs]
      exact scannedSites_nil
  | (_, e) :: ps => by
      rw [Expr.sitesPairs]
      exact (scannedSites_expr e).append (scannedSites_pairs ps)

/-- Going down a statement keeps up with the scan. -/
theorem scannedSites_stmt :
    (s : Stmt) → {c : Surroundings} → {bare : Bool} → Scanned (continuesLoop s) c →
      ScannedSites (s.sites c bare)
  | .expr e, _, _, _ | .throw e, _, _, _ => by
      rw [Stmt.sites]
      exact scannedSites_expr e
  | .declare _ i _, _, _, _ => by
      rw [Stmt.sites]
      exact scannedSites_optionalExpr i
  | .destructure _ i, _, _, _ => by
      rw [Stmt.sites]
      exact scannedSites_expr i
  | .block b, c, bare, h => by
      rw [continuesLoop] at h
      rw [Stmt.sites]
      cases bare with
      | true => exact scannedSites_stmts b h
      | false => exact scannedSites_stmts b h.inBlock
  | .ifElse t s a, c, _, h => by
      rw [continuesLoop] at h
      have hs : Scanned (continuesLoop s) c := h.mono (by simp +contextual)
      have ha : Scanned (continuesLoopOption a) c := h.mono (by simp +contextual)
      rw [Stmt.sites]
      exact (scannedSites_expr t).append
        ((scannedSites_stmt s hs.inBlock).append (scannedSites_option a ha.inBlock))
  | .whileLoop t b, c, _, _ | .forEach _ t b, c, _, _ => by
      rw [Stmt.sites]
      exact (scannedSites_expr t).append (scannedSites_stmt b (.inBody _ _ c))
  | .forLoop i t u b, c, _, h => by
      rw [Stmt.sites]
      exact (scannedSites_option i h.asInit).append ((scannedSites_optionalExpr t).append
        ((scannedSites_stmt b (.inBody _ _ c)).append (scannedSites_optionalExpr u)))
  | .ret v, c, _, _ => by
      rw [Stmt.sites]
      intro s hs hkind
      rcases List.mem_cons.mp hs with rfl | hs
      · cases hkind
      · exact scannedSites_optionalExpr v s hs hkind
  | .continueLoop, c, _, h => by
      rw [continuesLoop] at h
      rw [Stmt.sites]
      intro s hs _
      rw [List.mem_singleton.mp hs]
      exact h
  | .tryCatch b _ hd f, c, _, h => by
      rw [continuesLoop] at h
      have hf : Scanned (continuesLoopOption f) c := h.mono (by simp +contextual)
      rw [Stmt.sites]
      exact (scannedSites_stmt b .inGuarded).append
        ((scannedSites_option hd .inGuarded).append (scannedSites_option f hf.inFinally))
  | .function ⟨_, _, body, _⟩, _, _, _ => by
      rw [Stmt.sites, Func.sites]
      exact scannedSites_stmts body .top
  | .breakLoop, _, _, _ | .holding _, _, _, _ => by
      rw [Stmt.sites]
      exact scannedSites_nil

theorem scannedSites_stmts :
    (ss : List Stmt) → {c : Surroundings} → Scanned (continuesLoopList ss) c →
      ScannedSites (Stmt.sitesList c ss)
  | [], _, _ => by
      rw [Stmt.sitesList]
      exact scannedSites_nil
  | s :: ss, c, h => by
      rw [continuesLoopList] at h
      have hs : Scanned (continuesLoop s) c := h.mono (by simp +contextual)
      have hss : Scanned (continuesLoopList ss) c := h.mono (by simp +contextual)
      rw [Stmt.sitesList]
      exact (scannedSites_stmt s (hs.before ss)).append (scannedSites_stmts ss hss)

theorem scannedSites_option :
    (s : Option Stmt) → {c : Surroundings} → {bare : Bool} → Scanned (continuesLoopOption s) c →
      ScannedSites (Stmt.sitesOption c bare s)
  | none, _, _, _ => by
      rw [Stmt.sitesOption]
      exact scannedSites_nil
  | some s, _, _, h => by
      rw [continuesLoopOption] at h
      rw [Stmt.sitesOption]
      exact scannedSites_stmt s h

end

/-- A `continue` of a loop sees a label exactly if it is in no protected call, and in an
initialiser only beside another `continue`. -/
theorem Scanned.labelled_iff
    {c : Surroundings} (h : Scanned true c) (hloop : c.inLoop = true) :
    c.labelled = true ↔ c.inClosure = false ∧ (c.inInit = true → c.labelled = true) := by
  constructor
  · intro hlabelled
    refine ⟨?_, fun _ => hlabelled⟩
    cases hclosure : c.inClosure with
    | false => rfl
    | true => exact absurd (h.hidden hclosure) (by simp [hlabelled])
  · rintro ⟨hclosure, hinit⟩
    cases hc : c.inInit with
    | false => exact h.found rfl hloop hclosure hc
    | true => exact hinit hc

/-- What is written for a program is the text of its code.  If every `continue` is in a loop,
each jump of the code sees a label exactly if no `continue` is in a protected call inside of its
loop or alone in the initialiser of a counting loop. -/
theorem gotos_labelled_iff
    (p : Program)
    (hloops : ∀ s ∈ p.sites, s.kind = .continues → s.around.inLoop = true) :
    (∀ w, Code.text w (code p) = write p w) ∧
      ((∀ j ∈ Code.jumpsList false true (code p), j.kind = .continues → j.labelled = true) ↔
        ∀ s ∈ p.sites, s.kind = .continues →
          s.around.inClosure = false ∧ (s.around.inInit = true → s.around.labelled = true)) := by
  refine ⟨text_code p, ?_⟩
  have hscanned : ScannedSites p.sites := scannedSites_stmts p.body .top
  rw [jumpsList_code, List.forall_mem_map]
  refine forall₂_congr fun s hs => forall_congr' fun hkind => ?_
  exact (hscanned s hs hkind).labelled_iff (hloops s hs hkind)

/-- Nested loops with jumps in a branch, behind a protected call and in a function. -/
def continuingLoops : Program :=
  ⟨[.whileLoop (.ident "more") (.block
    [.forLoop (some (.declare "i" none true)) none (some (.call (.ident "step") []))
        (.ifElse (.ident "skip") .continueLoop none),
      .tryCatch (.expr (.call (.ident "work") [])) none none (some .continueLoop),
      .expr (.call (.ident "run")
        [.function ⟨"", [], [.whileLoop (.ident "on") .continueLoop], false⟩])])]⟩

theorem gotos_labelled_of_continuingLoops :
    (∀ w, Code.text w (code continuingLoops) = write continuingLoops w) ∧
      (Code.jumpsList false true (code continuingLoops)).length = 3 ∧
      ∀ j ∈ Code.jumpsList false true (code continuingLoops),
        j.kind = .continues → j.labelled = true := by
  have h := gotos_labelled_iff continuingLoops (by decide)
  exact ⟨h.1, by decide, h.2.mpr (by decide)⟩

/-- A `continue` in the body of a statement that catches exceptions. -/
def guardedContinue : Program :=
  ⟨[.whileLoop (.ident "a") (.tryCatch .continueLoop none none none)]⟩

/-- The jump is in the function of the protected call, and the label outside of it. -/
theorem goto_unlabelled_of_guardedContinue :
    (∀ s ∈ guardedContinue.sites, s.kind = .continues → s.around.inLoop = true) ∧
      (∃ j ∈ Code.jumpsList false true (code guardedContinue),
        j.kind = .continues ∧ j.labelled = false) ∧
      write guardedContinue 2 =
        "while a do\n  local __ok0, __err1 = pcall(function()\n    goto continue\n  end)\n" ++
          "  if not __ok0 then\n    error(__err1, 0)\n  end\n  ::continue::\nend\n" :=
  ⟨by decide, by decide, by decide +kernel⟩

/-! ## Returns -/

/-- What is written for a program is the text of its code.  If every return is at the end of its
statements, and these do not run at the end of a statement that catches exceptions, each return
of the code is the last statement of its block exactly if none is at the end of the body of a
loop that has either a label or an update. -/
theorem returns_last_iff
    (p : Program)
    (hlast : ∀ s ∈ p.sites, s.kind = .returns → s.around.last = true)
    (hfinal : ∀ s ∈ p.sites, s.kind = .returns → s.around.final = false) :
    (∀ w, Code.text w (code p) = write p w) ∧
      ((∀ j ∈ Code.jumpsList false true (code p), j.kind = .returns → j.last = true) ↔
        ∀ s ∈ p.sites, s.kind = .returns → s.around.ahead = false) := by
  refine ⟨text_code p, ?_⟩
  rw [jumpsList_code, List.forall_mem_map]
  refine forall₂_congr fun s hs => forall_congr' fun hkind => ?_
  have hclosing : s.around.closing = !s.around.ahead := by
    simp [Surroundings.closing, hlast s hs hkind, hfinal s hs hkind]
  simp [Jump.ofSite, hclosing]

/-- Returns in a branch, in a protected call, in a loop with a label and an update, and in a
function. -/
def closingReturns : Program :=
  ⟨[.whileLoop (.ident "more") (.block
      [.ifElse (.ident "done") (.ret (some (.ident "a"))) (some (.block [.ret none]))]),
    .forLoop none none (some (.call (.ident "step") [])) (.block
      [.ifElse (.ident "skip") .continueLoop none, .ret none]),
    .tryCatch (.ret none) (some "e") (some (.ret (some (.ident "e")))) none,
    .ret (some (.function ⟨"", [], [.ret (some (.ident "b"))], false⟩))]⟩

theorem returns_last_of_closingReturns :
    (∀ w, Code.text w (code closingReturns) = write closingReturns w) ∧
      ((Code.jumpsList false true (code closingReturns)).countP (·.kind = .returns)) = 7 ∧
      ∀ j ∈ Code.jumpsList false true (code closingReturns),
        j.kind = .returns → j.last = true := by
  have h := returns_last_iff closingReturns (by decide) (by decide)
  exact ⟨h.1, by decide, h.2.mpr (by decide)⟩

/-- A return as the body of a loop with an update. -/
def returnBeforeUpdate : Program :=
  ⟨[.forLoop none none (some (.call (.ident "step") [])) (.ret none)]⟩

/-- The update follows the return in the same block. -/
theorem return_not_last_of_returnBeforeUpdate :
    (∀ s ∈ returnBeforeUpdate.sites,
        s.kind = .returns → s.around.last = true ∧ s.around.final = false) ∧
      (∃ j ∈ Code.jumpsList false true (code returnBeforeUpdate),
        j.kind = .returns ∧ j.last = false) ∧
      write returnBeforeUpdate 2 =
        "do\n  while true do\n    return\n    step()\n  end\nend\n" :=
  ⟨by decide, by decide, by decide +kernel⟩

end Lua

end Bracket
