import Bracket.Proofs.Execution.Completions
import Bracket.Proofs.Execution.Frame
import Bracket.Proofs.Execution.Loops
import Bracket.Proofs.Refinement.Separation
import Bracket.Proofs.Target.Python

/-!
# Counting loops as while loops

Python has no counting loop.  The writer prints one as its initialiser and a while loop, whose
suite is the body and after it the update.  This is the text of a program with a while loop,
`Stmt.asWhile`, and the two programs can be compared.

A body that ends with `continue` goes on with the update of a counting loop, but in the suite of
a while loop it leaves out what stands behind it.  The main statement is that nothing else sets
the two loops apart: they go through the same tests, bodies and updates to the same end exactly
as long as there is no update or no body ends with `continue`.
-/

namespace Bracket

variable {W : Type}

/-- The while loop for a counting loop, with its initialiser in front.  The block around the body
is there for the meaning only: what the body of a counting loop declares is not known to the
update.  It has no counterpart in the text for Python, which prints a block as its
statements. -/
def Stmt.asWhile (i : Option Stmt) (t u : Option Expr) (b : Stmt) : Stmt :=
  .block (i.toList ++
    [.whileLoop (t.getD (.literal (.bool true))) (.block (.block [b] :: u.toList.map .expr))])

/-! ## The text -/

namespace Python

open Text (Line renderLines)

theorem deepenFirst_zero (lines : List Line) : deepenFirst 0 lines = lines := by
  cases lines <;> rfl

theorem deepenFirst_append
    (d : Nat) {a : List Line} (h : a ≠ []) (b : List Line) :
    deepenFirst d (a ++ b) = deepenFirst d a ++ b := by
  cases a with
  | nil => exact absurd rfl h
  | cons line a => rfl

/-- The lines of the while loop itself. -/
theorem stmt_whileLoop_eq
    (d : Nat) (t u : Option Expr) (b : Stmt) :
    stmt d (.whileLoop (t.getD (.literal (.bool true))) (.block (.block [b] :: u.toList.map .expr)))
      = ⟨d, "while " ++ loopTest t ++ ":"⟩ :: (stmt (d + 1) b ++ updateLines (d + 1) u) := by
  have htest : expr (t.getD (.literal (.bool true))) = loopTest t := by
    cases t <;> rfl
  have hupdate : stmts (d + 1) (u.toList.map .expr) = updateLines (d + 1) u := by
    cases u <;> rfl
  rw [stmt, stmt, suite, stmt, suite, stmts, htest, hupdate, List.append_nil]

/-- A counting loop has the lines of its while loop, but for the indentation of an
initialiser. -/
theorem stmt_forLoop_eq_deepenFirst
    (d : Nat) (i : Option Stmt) (t u : Option Expr) (b : Stmt) :
    stmt d (.forLoop i t u b) =
      deepenFirst (if i.isSome then d else 0) (stmt d (.asWhile i t u b)) := by
  rw [stmt_forLoop, Stmt.asWhile, stmt]
  cases i with
  | none =>
      rw [Option.toList_none, List.nil_append, suite, stmts, List.append_nil,
        stmt_whileLoop_eq]
      exact (deepenFirst_zero _).symm
  | some i =>
      rw [Option.toList_some, List.cons_append, List.nil_append, suite, stmts, stmts,
        List.append_nil, stmt_whileLoop_eq, Option.isSome_some, if_pos rfl,
        deepenFirst_append d (stmt_ne_nil d i)]
      rfl

theorem stmts_append
    (d : Nat) (a b : List Stmt) : stmts d (a ++ b) = stmts d a ++ stmts d b := by
  induction a with
  | nil => rfl
  | cons s a ih => rw [List.cons_append, stmts, stmts, ih, List.append_assoc]

/-- At the margin of a program a counting loop has the text of its while loop. -/
theorem write_forLoop_eq
    (before after : List Stmt) (i : Option Stmt) (t u : Option Expr) (b : Stmt) (w : Nat) :
    write ⟨before ++ .forLoop i t u b :: after⟩ w =
      write ⟨before ++ .asWhile i t u b :: after⟩ w := by
  have hlines : stmt 0 (.forLoop i t u b) = stmt 0 (.asWhile i t u b) := by
    rw [stmt_forLoop_eq_deepenFirst, ite_self, deepenFirst_zero]
  rw [write_eq_renderLines, write_eq_renderLines, lines, lines, stmts_append, stmts_append, stmts,
    stmts, hlines]

end Python

/-! ## The two machines -/

namespace Runtime

variable (rt : Runtime W)

/-- A counting loop as a machine.  The update follows every body that does not end the loop. -/
def forLoop (env : Env) (t u : Option Expr) (b : Stmt) : Loop W where
  truthy := rt.truthy
  test n := Expr.valueOption rt (rt.engine n) env (.bool true) t
  body n := do
    let r ← b.exec rt (rt.engine n) env
    pure r.1
  update n := Expr.valueOption rt (rt.engine n) env .null u
  updates _ := u.isSome

/-- Its while loop as a machine.  The update stands behind the body, which has to end
normally. -/
def whileLoop (env : Env) (t u : Option Expr) (b : Stmt) : Loop W :=
  (rt.forLoop env t u b).withUpdates fun
    | .normal => u.isSome
    | _ => false

/-- Run an initialiser and the loop behind it. -/
def initialised (n : Nat) (env : Env) (i : Option Stmt) (L : Env → Loop W) :
    Run W Completion := do
  let r ← Stmt.execOption rt (rt.engine n) env i
  match r.1 with
  | .normal => (rt.engine n).iterate ((L (env.extend r.2)).turn n)
  | c => pure c

variable (n : Nat) (env : Env) (i : Option Stmt) (t u : Option Expr) (b : Stmt)

theorem execList_singleton
    (eng : Engine W) (env : Env) (s : Stmt) :
    Stmt.execList rt eng env [s] = (do
      let r ← s.exec rt eng env
      pure r.1) := by
  rw [Stmt.execList]
  congr
  funext r
  cases r.1 <;> rfl

/-- A turn, with the body as a statement. -/
theorem forLoop_turn :
    (rt.forLoop env t u b).turn n = (do
      let v ← Expr.valueOption rt (rt.engine n) env (.bool true) t
      if rt.truthy v then do
        let r ← b.exec rt (rt.engine n) env
        match r.1.afterTurn with
        | some c => pure (some c)
        | none => do
            let _ ← Expr.valueOption rt (rt.engine n) env .null u
            pure none
      else pure (some .normal)) := by
  have hfinish : ∀ c, (rt.forLoop env t u b).finish n c = (match c.afterTurn with
      | some c => pure (some c)
      | none => do
          let _ ← Expr.valueOption rt (rt.engine n) env .null u
          pure none) := by
    intro c
    rw [Loop.finish]
    cases c.afterTurn with
    | some c' => rfl
    | none =>
        cases u with
        | none => exact (pure_bind _ _).symm
        | some e => rfl
  simp only [Loop.turn, hfinish]
  simp only [forLoop, bind_assoc, pure_bind]

theorem execList_forLoop :
    Stmt.execList rt (rt.engine n) env [.forLoop i t u b] =
      rt.initialised n env i fun env' => rt.forLoop env' t u b := by
  have hcompletion (m : Run W Completion) : ((do
      let c ← m
      pure (c, ([] : Declared))) >>= fun r => pure r.1) = m := by
    simp only [bind_assoc, pure_bind, bind_pure]
  rw [execList_singleton, Stmt.exec, initialised, bind_assoc]
  congr
  funext r
  cases r.1 with
  | normal =>
      exact (hcompletion _).trans
        (congrArg _ (rt.forLoop_turn n (env.extend r.2) t u b).symm)
  | returned vs | broke | continued => rfl

/-- The suite of the while loop: a body that ends normally is followed by the update. -/
theorem exec_suite :
    (do
      let r ← (Stmt.block (.block [b] :: u.toList.map .expr)).exec rt (rt.engine n) env
      pure r.1.afterTurn) =
    (do
      let r ← b.exec rt (rt.engine n) env
      (rt.whileLoop env t u b).finish n r.1) := by
  simp only [Stmt.exec, Stmt.execList, bind_assoc, pure_bind]
  congr
  funext r
  cases r.1 with
  | returned vs | broke | continued => rfl
  | normal =>
      cases u with
      | none => rfl
      | some e =>
          have hupdate : (rt.whileLoop env t (some e) b).finish n .normal = (do
              let _ ← e.results rt (rt.engine n) env
              pure none) := by
            change ((e.results rt (rt.engine n) env).one >>= fun _ => pure none) = _
            simp only [Run.one, bind_assoc, pure_bind]
          rw [hupdate]
          simp only [Option.toList_some, List.map_cons, List.map_nil, execList_singleton,
            Stmt.exec, bind_assoc, pure_bind]
          rfl

theorem whileLoop_turn :
    (rt.whileLoop env t u b).turn n = (do
      let v ← ((t.getD (.literal (.bool true))).results rt (rt.engine n) env).one
      if rt.truthy v then do
        let r ← (Stmt.block (.block [b] :: u.toList.map .expr)).exec rt (rt.engine n) env
        pure r.1.afterTurn
      else pure (some .normal)) := by
  have htest : (rt.whileLoop env t u b).test n =
      ((t.getD (.literal (.bool true))).results rt (rt.engine n) env).one := by
    cases t with
    | none => exact (pure_bind _ _).symm
    | some e => rfl
  rw [Loop.turn, htest, exec_suite rt n env t u b]
  simp only [whileLoop, Loop.withUpdates, forLoop, bind_assoc, pure_bind]

theorem execList_asWhile :
    Stmt.execList rt (rt.engine n) env [.asWhile i t u b] =
      rt.initialised n env i fun env' => rt.whileLoop env' t u b := by
  have hloop : ∀ env', Stmt.execList rt (rt.engine n) env' [.whileLoop
      (t.getD (.literal (.bool true))) (.block (.block [b] :: u.toList.map .expr))] =
      (rt.engine n).iterate ((rt.whileLoop env' t u b).turn n) := by
    intro env'
    rw [execList_singleton, Stmt.exec, whileLoop_turn]
    simp only [bind_assoc, pure_bind, bind_pure]
  rw [execList_singleton, Stmt.asWhile, Stmt.exec, initialised]
  simp only [bind_assoc, pure_bind, bind_pure]
  cases i with
  | none =>
      rw [Stmt.execOption, pure_bind]
      exact hloop env
  | some i =>
      rw [Option.toList_some, List.cons_append, List.nil_append, Stmt.execList, Stmt.execOption]
      congr
      funext r
      cases r.1 with
      | normal => exact hloop (env.extend r.2)
      | returned vs | broke | continued => rfl

/-! ## The answers of the machines -/

/-- An initialiser, and the loop behind it, come to an end. -/
inductive EndsInitialised (i : Option Stmt) (L : Env → Loop W) (s : State W) :
    Answer W Completion → Prop
  | throws {n v s' es}
      (hinit : Stmt.execOption rt (rt.engine n) env i s = some ⟨.error v, s', es⟩) :
      EndsInitialised i L s ⟨.error v, s', es⟩
  | leaves {n c ds s' es} (hc : c ≠ .normal)
      (hinit : Stmt.execOption rt (rt.engine n) env i s = some ⟨.ok (c, ds), s', es⟩) :
      EndsInitialised i L s ⟨.ok c, s', es⟩
  | loops {n ds s' es a}
      (hinit : Stmt.execOption rt (rt.engine n) env i s = some ⟨.ok (.normal, ds), s', es⟩)
      (hloop : (L (env.extend ds)).Ends (.test s') a) :
      EndsInitialised i L s (a.after es)

variable {rt env i t u b} {L : Env → Loop W} {s : State W} {a : Answer W Completion}

theorem EndsInitialised.of_initialised
    (h : rt.initialised n env i L s = some a) : rt.EndsInitialised env i L s a := by
  rw [initialised] at h
  cases hinit : Stmt.execOption rt (rt.engine n) env i s with
  | none =>
      rw [Run.bind_of_none _ hinit] at h
      exact nomatch h
  | some b =>
      obtain ⟨r, s', es⟩ := b
      cases r with
      | error v =>
          rw [Run.bind_of_error _ hinit] at h
          cases h
          exact .throws hinit
      | ok r =>
          obtain ⟨c, ds⟩ := r
          rw [Run.bind_of_ok _ hinit] at h
          obtain ⟨a, ha, rfl⟩ := Option.map_eq_some_iff.mp h
          cases c with
          | normal => exact .loops hinit (.of_iterate ha)
          | returned vs | broke | continued =>
              cases ha
              rw [Answer.after_mk, List.append_nil]
              exact .leaves (nofun) hinit

theorem EndsInitialised.exists_initialised
    (hL : ∀ env, (L env).Steady) (h : rt.EndsInitialised env i L s a) :
    ∃ n, rt.initialised n env i L s = some a := by
  cases h with
  | @throws n v s' es hinit => exact ⟨n, Run.bind_of_error _ hinit⟩
  | @leaves n c ds s' es hc hinit =>
      refine ⟨n, ?_⟩
      rw [initialised, Run.bind_of_ok _ hinit]
      cases c with
      | normal => exact absurd rfl hc
      | returned vs | broke | continued => simp
  | @loops n ds s' es a hinit hloop =>
      obtain ⟨N, hN⟩ := hloop.exists_iterate (hL (env.extend ds)) rt
      refine ⟨max n N, ?_⟩
      have hinit' := Stmt.execOption_mono (Nat.le_max_left n N) hinit
      rw [initialised, Run.bind_of_ok _ hinit']
      exact congrArg (Option.map (Answer.after es)) (hN _ (Nat.le_max_right n N))

/-- An initialiser without events. -/
theorem EndsInitialised.of_silent
    {ds : Declared} {s' : State W}
    (hinit : Stmt.execOption rt (rt.engine n) env i s = some ⟨.ok (.normal, ds), s', []⟩)
    (hloop : (L (env.extend ds)).Ends (.test s') a) : rt.EndsInitialised env i L s a := by
  rw [← a.after_nil]
  exact .loops hinit hloop

theorem forLoop_steady (rt : Runtime W) (env : Env) (t u : Option Expr) (b : Stmt) :
    (rt.forLoop env t u b).Steady where
  test h ha := Expr.valueOption_mono h ha
  update h ha := Expr.valueOption_mono h ha
  body {n n' s a} h ha := by
    have hbody (n : Nat) : (rt.forLoop env t u b).body n = Stmt.execList rt (rt.engine n) env [b] :=
      (execList_singleton rt (rt.engine n) env b).symm
    rw [hbody] at ha ⊢
    exact Stmt.execList_mono h ha

/-- The while loop has the parts of the counting loop. -/
theorem whileLoop_steady (rt : Runtime W) (env : Env) (t u : Option Expr) (b : Stmt) :
    (rt.whileLoop env t u b).Steady :=
  ⟨(rt.forLoop_steady env t u b).test, (rt.forLoop_steady env t u b).body,
    (rt.forLoop_steady env t u b).update⟩

theorem executes_forLoop_iff :
    rt.Executes env [.forLoop i t u b] s a ↔
      rt.EndsInitialised env i (fun env' => rt.forLoop env' t u b) s a := by
  simp only [Executes, execList_forLoop]
  exact ⟨fun ⟨_, h⟩ => .of_initialised _ h,
    fun h => h.exists_initialised fun env' => rt.forLoop_steady env' t u b⟩

theorem executes_asWhile_iff :
    rt.Executes env [.asWhile i t u b] s a ↔
      rt.EndsInitialised env i (fun env' => rt.whileLoop env' t u b) s a := by
  simp only [Executes, execList_asWhile]
  exact ⟨fun ⟨_, h⟩ => .of_initialised _ h,
    fun h => h.exists_initialised fun env' => rt.whileLoop_steady env' t u b⟩

/-! ## Where the machines part -/

/-- The machines part at a body that ends with `continue`, if there is an update. -/
theorem whileLoop_next_eq_iff
    (step : Loop.Step W) :
    (rt.whileLoop env t u b).next step = (rt.forLoop env t u b).next step ↔
      u = none ∨ ¬step.Continues := by
  cases step with
  | test b' | update b' => exact iff_of_true rfl (.inr id)
  | body b' =>
      obtain ⟨r, s, es⟩ := b'
      cases r with
      | error v => exact iff_of_true rfl (.inr nofun)
      | ok c =>
          cases c with
          | normal | returned vs | broke => exact iff_of_true rfl (.inr nofun)
          | continued =>
              cases u with
              | none => exact iff_of_true rfl (.inl rfl)
              | some e =>
                  refine iff_of_false nofun ?_
                  rintro (h | h)
                  · exact nomatch h
                  · exact h rfl

/-! ## Counting loops and their while loops -/

variable {p q : Loop.Point W} {steps : List (Loop.Step W)}

theorem forall_next_eq_iff :
    (∀ step ∈ steps, (rt.whileLoop env t u b).next step = (rt.forLoop env t u b).next step) ↔
      u = none ∨ ∀ step ∈ steps, ¬step.Continues := by
  simp only [whileLoop_next_eq_iff]
  by_cases hu : u = none
  · exact iff_of_true (fun _ _ => .inl hu) (.inl hu)
  · simp only [hu, false_or]

/-- A run of the counting loop is one of the while loop exactly if no body with an update behind
it ends with `continue`. -/
theorem whileLoop_runs_iff
    (h : (rt.forLoop env t u b).Runs p steps q) :
    (rt.whileLoop env t u b).Runs p steps q ↔ u = none ∨ ∀ step ∈ steps, ¬step.Continues := by
  rw [whileLoop, h.withUpdates_iff, ← whileLoop, forall_next_eq_iff]

theorem forLoop_runs_iff
    (h : (rt.whileLoop env t u b).Runs p steps q) :
    (rt.forLoop env t u b).Runs p steps q ↔ u = none ∨ ∀ step ∈ steps, ¬step.Continues := by
  have hfor : rt.forLoop env t u b = (rt.whileLoop env t u b).withUpdates fun _ => u.isSome := rfl
  rw [hfor, h.withUpdates_iff, ← hfor]
  exact ⟨fun heq => forall_next_eq_iff.mp fun step hstep => (heq step hstep).symm,
    fun hfree step hstep => (forall_next_eq_iff.mpr hfree step hstep).symm⟩

/-- No body without `continue` ends with it. -/
theorem not_continues_of_allows
    {step : Loop.Step W} (hb : b.continues = false) (h : (rt.forLoop env t u b).Allows p step) :
    ¬step.Continues := by
  cases step with
  | test a | update a => exact id
  | body a =>
      cases p with
      | test s | update s | ended r s => exact h.elim
      | body s =>
          obtain ⟨n, hn⟩ := h
          obtain ⟨r, s', es⟩ := a
          have hyields : Run.Yields (· ≠ .continued) ((rt.forLoop env t u b).body n) :=
            (Stmt.yields_exec rt n env b hb).bind fun _ hr => .pure hr
          rintro ⟨⟩
          exact hyields hn rfl

/-- Without an update or without `continue` the machines come to the same end. -/
theorem whileLoop_ends_iff
    (h : u = none ∨ b.continues = false) :
    (rt.whileLoop env t u b).Ends p a ↔ (rt.forLoop env t u b).Ends p a := by
  constructor
  · rintro ⟨steps, hruns, hevents⟩
    refine ⟨steps, (forLoop_runs_iff hruns).mpr (h.imp id fun hb step hstep => ?_), hevents⟩
    obtain ⟨p, hp⟩ := hruns.exists_allows step hstep
    exact not_continues_of_allows hb (Loop.allows_withUpdates.mp hp)
  · rintro ⟨steps, hruns, hevents⟩
    refine ⟨steps, (whileLoop_runs_iff hruns).mpr (h.imp id fun hb step hstep => ?_), hevents⟩
    obtain ⟨p, hp⟩ := hruns.exists_allows step hstep
    exact not_continues_of_allows hb hp

theorem EndsInitialised.mono
    {L M : Env → Loop W} (hends : ∀ env p a, (L env).Ends p a → (M env).Ends p a)
    (h : rt.EndsInitialised env i L s a) : rt.EndsInitialised env i M s a := by
  cases h with
  | throws hinit => exact .throws hinit
  | leaves hc hinit => exact .leaves hc hinit
  | loops hinit hloop => exact .loops hinit (hends _ _ _ hloop)

theorem executes_asWhile_iff_forLoop
    (h : u = none ∨ b.continues = false) :
    rt.Executes env [.asWhile i t u b] s a ↔ rt.Executes env [.forLoop i t u b] s a := by
  rw [executes_asWhile_iff, executes_forLoop_iff]
  exact ⟨.mono fun _ _ _ => (whileLoop_ends_iff h).mp,
    .mono fun _ _ _ => (whileLoop_ends_iff h).mpr⟩

end Runtime

/-! ## A loop that counts to one -/

/-- A runtime that adds and compares whole numbers. -/
def Runtime.arithmetic : Runtime Unit :=
  { Runtime.sample .python [] .null rfl with
    query := fun _ q => match q with
      | .operation .lt (.number a) (.number b) =>
          .ok ⟨.bool (decide (a.wholeSize < b.wholeSize)), rfl⟩
      | .operation .add (.number a) (.number b) =>
          .ok ⟨.number (.ofNat (a.wholeSize + b.wholeSize)), rfl⟩
      | _ => .error ⟨.fault ⟨"ArithmeticError"⟩, rfl⟩ }

namespace Counting

def init : Stmt := .declare "i" (some (.literal (.number (.ofNat 0)))) true

def test : Expr := .binary (.ident "i") .lt (.literal (.number (.ofNat 1)))

def sum : Expr := .binary (.ident "i") .add (.literal (.number (.ofNat 1)))

def update : Expr := .assign (.ident "i") sum

variable (n : Nat) {env : Env} {s : State Unit} {d : Double}

theorem one_binary
    {op : BinaryOp} {v : Value} (h : env.Holds s "i" (.number d))
    (hop : Runtime.arithmetic.combine op (.number d) (pure (.number (.ofNat 1))) s =
      some ⟨.ok v, s, []⟩) :
    ((Expr.binary (.ident "i") op (.literal (.number (.ofNat 1)))).results .arithmetic
      (Runtime.arithmetic.engine n) env).one s = some ⟨.ok v, s, []⟩ := by
  have hleft := Run.one_of_answer (h.results_ident .arithmetic (Runtime.arithmetic.engine n))
  have hresults : (Expr.binary (.ident "i") op (.literal (.number (.ofNat 1)))).results .arithmetic
      (Runtime.arithmetic.engine n) env s = some ⟨.ok [v], s, []⟩ := by
    rw [Expr.results, Run.bind_of_silent _ hleft]
    exact Run.bind_of_silent _ hop
  exact Run.one_of_answer hresults

theorem one_test
    (h : env.Holds s "i" (.number d)) :
    (test.results .arithmetic (Runtime.arithmetic.engine n) env).one s =
      some ⟨.ok (.bool (decide (d.wholeSize < (Double.ofNat 1).wholeSize))), s, []⟩ :=
  one_binary n h rfl

theorem one_sum
    (h : env.Holds s "i" (.number d)) :
    (sum.results .arithmetic (Runtime.arithmetic.engine n) env).one s =
      some ⟨.ok (.number (.ofNat (d.wholeSize + (Double.ofNat 1).wholeSize))), s, []⟩ :=
  one_binary n h rfl

/-- The environment and the state behind the initialiser. -/
def scope : Env := Env.set (fun _ => none) "i" 0

def start : State Unit := State.empty.declare true "i" (.number (.ofNat 0))

theorem scope_assignable : scope.Assignable start "i" 0 (.number (.ofNat 0)) :=
  .declare (fun _ => none) State.empty "i" _

theorem exec_init :
    Stmt.execOption .arithmetic (Runtime.arithmetic.engine n) (fun _ => none) (some init) .empty =
      some ⟨.ok (.normal, [("i", 0)]), start, []⟩ := by
  have hzero : ((Expr.literal (.number (.ofNat 0))).results .arithmetic
      (Runtime.arithmetic.engine n) fun _ => none).one State.empty =
      some ⟨.ok (.number (.ofNat 0)), .empty, []⟩ := rfl
  exact Stmt.exec_declare_of_ok true hzero

theorem one_test_start :
    (test.results .arithmetic (Runtime.arithmetic.engine n) scope).one start =
      some ⟨.ok (.bool true), start, []⟩ := by
  have hless : (Double.ofNat 0).wholeSize < (Double.ofNat 1).wholeSize := by
    decide +kernel
  rw [one_test n scope_assignable.holds, decide_eq_true hless]

/-- The body ends with `continue`, the update makes the test fail. -/
theorem forLoop_ends :
    ∃ s, (Runtime.arithmetic.forLoop scope (some test) (some update)
      (.block [.continueLoop])).Ends (.test start) ⟨.ok .normal, s, []⟩ := by
  have hupdate := scope_assignable.results_assign (one_sum 0 scope_assignable.holds)
  have hstop : ¬(Double.ofNat ((Double.ofNat 0).wholeSize + (Double.ofNat 1).wholeSize)).wholeSize
      < (Double.ofNat 1).wholeSize := by
    decide +kernel
  have hnext := scope_assignable.assign
    (.number (.ofNat ((Double.ofNat 0).wholeSize + (Double.ofNat 1).wholeSize)))
  have htest := one_test 0 hnext.holds
  rw [decide_eq_false hstop] at htest
  exact ⟨_, [.test ⟨.ok (.bool true), start, []⟩, .body ⟨.ok .continued, start, []⟩,
    .update ⟨.ok _, _, []⟩, .test ⟨.ok (.bool false), _, []⟩],
    ⟨⟨0, one_test_start 0⟩, ⟨0, rfl⟩, ⟨0, Run.one_of_answer hupdate⟩, ⟨0, htest⟩, rfl⟩, rfl⟩

/-- The body leaves the update out, so that the test holds for ever. -/
theorem whileLoop_not_ends
    (a : Answer Unit Completion) :
    ¬(Runtime.arithmetic.whileLoop scope (some test) (some update)
      (.block [.continueLoop])).Ends (.test start) a := by
  rintro ⟨steps, hruns, -⟩
  have hinvariant := hruns.invariant (I := fun p => p = .test start ∨ p = .body start) ?_ (.inl rfl)
  · rcases hinvariant with h | h <;> exact nomatch h
  · rintro p step (rfl | rfl) hstep
    · cases step with
      | body b | update b => exact hstep.elim
      | test b =>
          obtain ⟨n, hn⟩ := hstep
          obtain rfl := Option.some.inj ((one_test_start n).symm.trans hn)
          exact .inr rfl
    · cases step with
      | test b | update b => exact hstep.elim
      | body b =>
          obtain ⟨n, hn⟩ := hstep
          cases hn
          exact .inl rfl

end Counting

/-- The writer for Python prints a counting loop as its while loop, but for the indentation of an
initialiser inside of a suite.  Both loops have an answer exactly if their machines come to an
end with it after the initialiser.  The machines go through the same tests, bodies and updates
to the same point exactly if the loop has no update or none of these bodies ends with
`continue`; so the loops have the same answers if the body has no `continue` at all. -/
theorem Python.forLoop_runs_as_while_unless_continued
    (rt : Runtime W) (i : Option Stmt) (t u : Option Expr) (b : Stmt) :
    (∀ d, stmt d (.forLoop i t u b) =
      deepenFirst (if i.isSome then d else 0) (stmt d (.asWhile i t u b))) ∧
    (∀ before after w, write ⟨before ++ .forLoop i t u b :: after⟩ w =
      write ⟨before ++ .asWhile i t u b :: after⟩ w) ∧
    (∀ env s a, rt.Executes env [.forLoop i t u b] s a ↔
      rt.EndsInitialised env i (fun env' => rt.forLoop env' t u b) s a) ∧
    (∀ env s a, rt.Executes env [.asWhile i t u b] s a ↔
      rt.EndsInitialised env i (fun env' => rt.whileLoop env' t u b) s a) ∧
    (∀ env s steps p, (rt.forLoop env t u b).Runs (.test s) steps p →
      ((rt.whileLoop env t u b).Runs (.test s) steps p ↔
        u = none ∨ ∀ step ∈ steps, ¬step.Continues)) ∧
    (∀ env s steps p, (rt.whileLoop env t u b).Runs (.test s) steps p →
      ((rt.forLoop env t u b).Runs (.test s) steps p ↔
        u = none ∨ ∀ step ∈ steps, ¬step.Continues)) ∧
    (u = none ∨ b.continues = false → ∀ env s a,
      (rt.Executes env [.asWhile i t u b] s a ↔ rt.Executes env [.forLoop i t u b] s a)) :=
  ⟨fun d => stmt_forLoop_eq_deepenFirst d i t u b,
    fun before after => write_forLoop_eq before after i t u b,
    fun _ _ _ => Runtime.executes_forLoop_iff,
    fun _ _ _ => Runtime.executes_asWhile_iff,
    fun _ _ _ _ => Runtime.whileLoop_runs_iff,
    fun _ _ _ _ => Runtime.forLoop_runs_iff,
    fun h _ _ _ => Runtime.executes_asWhile_iff_forLoop h⟩

/-- A body that breaks the loop in its first turn: both loops go through the test and the body
to the same end, and have the same answer. -/
theorem Python.forLoop_runs_as_while_unless_continued_of_break :
    (Runtime.arithmetic.forLoop Counting.scope (some Counting.test) (some Counting.update)
      .breakLoop).Runs (.test Counting.start)
        [.test ⟨.ok (.bool true), Counting.start, []⟩, .body ⟨.ok .broke, Counting.start, []⟩]
        (.ended (.ok .normal) Counting.start) ∧
    (Runtime.arithmetic.whileLoop Counting.scope (some Counting.test) (some Counting.update)
      .breakLoop).Runs (.test Counting.start)
        [.test ⟨.ok (.bool true), Counting.start, []⟩, .body ⟨.ok .broke, Counting.start, []⟩]
        (.ended (.ok .normal) Counting.start) ∧
    Stmt.breakLoop.continues = false ∧
    Runtime.arithmetic.Executes (fun _ => none) [.asWhile (some Counting.init)
      (some Counting.test) (some Counting.update) .breakLoop] .empty
      ⟨.ok .normal, Counting.start, []⟩ := by
  obtain ⟨-, -, hfor, -, hruns, -, hanswers⟩ := forLoop_runs_as_while_unless_continued
    .arithmetic (some Counting.init) (some Counting.test) (some Counting.update) .breakLoop
  have hrun : (Runtime.arithmetic.forLoop Counting.scope (some Counting.test)
      (some Counting.update) .breakLoop).Runs (.test Counting.start)
        [.test ⟨.ok (.bool true), Counting.start, []⟩, .body ⟨.ok .broke, Counting.start, []⟩]
        (.ended (.ok .normal) Counting.start) :=
    ⟨⟨0, Counting.one_test_start 0⟩, ⟨0, rfl⟩, rfl⟩
  refine ⟨hrun, (hruns _ _ _ _ hrun).mpr (.inr ?_), rfl, (hanswers (.inr rfl) _ _ _).mpr ?_⟩
  · exact List.forall_mem_cons.mpr ⟨id, List.forall_mem_cons.mpr ⟨nofun, nofun⟩⟩
  · exact (hfor _ _ _).mpr (.of_silent 0 (Counting.exec_init 0) ⟨_, hrun, rfl⟩)

/-- A loop that counts to one with the body `continue` ends.  The while loop with its text never
ends. -/
theorem Python.continued_count_never_ends_as_while :
    write ⟨[.forLoop (some Counting.init) (some Counting.test) (some Counting.update)
      (.block [.continueLoop])]⟩ 4 = "i = 0\nwhile (i < 1):\n    continue\n    i = (i + 1)\n" ∧
    (∃ s, Runtime.arithmetic.Executes (fun _ => none) [.forLoop (some Counting.init)
      (some Counting.test) (some Counting.update) (.block [.continueLoop])] .empty
      ⟨.ok .normal, s, []⟩) ∧
    ∀ a, ¬Runtime.arithmetic.Executes (fun _ => none) [.asWhile (some Counting.init)
      (some Counting.test) (some Counting.update) (.block [.continueLoop])] .empty a := by
  refine ⟨?_, ?_, ?_⟩
  · rw [write_eq_renderLines]
    decide +kernel
  · obtain ⟨s, hs⟩ := Counting.forLoop_ends
    exact ⟨s, Runtime.executes_forLoop_iff.mpr (.of_silent 0 (Counting.exec_init 0) hs)⟩
  · intro a h
    cases Runtime.executes_asWhile_iff.mp h with
    | @throws n v s' es hinit => exact nomatch (Counting.exec_init n).symm.trans hinit
    | @leaves n c ds s' es hc hinit =>
        cases (Counting.exec_init n).symm.trans hinit
        exact hc rfl
    | @loops n ds s' es a hinit hloop =>
        cases (Counting.exec_init n).symm.trans hinit
        exact Counting.whileLoop_not_ends a hloop

end Bracket
