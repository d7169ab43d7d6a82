import Bracket.Proofs.Execution.Basic

/-!
# What statements can end with

`Run.Yields` is a property of the results of a run, whatever state it starts in.  The main
statement is that a statement that has no `continue` for the loop around it does not end with
`continue`: inner loops, handlers and cleanups do not bring one up.
-/

namespace Bracket

variable {W : Type}

/-! ## Results of runs -/

namespace Run

variable {α β : Type} {P : α → Prop} {Q : β → Prop}

/-- Every result of the run has the property. -/
def Yields (P : α → Prop) (m : Run W α) : Prop :=
  ∀ ⦃s s' es x⦄, m s = some ⟨.ok x, s', es⟩ → P x

theorem Yields.pure {x : α} (h : P x) : Yields P (pure x : Run W α) := by
  rintro s s' es y ⟨⟩
  exact h

theorem Yields.raise (v : Value) : Yields P (raise v : Run W α) := fun _ _ _ _ h => nomatch h

theorem Yields.bind
    {m : Run W α} {k : α → Run W β} (hm : Yields P m) (hk : ∀ x, P x → Yields Q (k x)) :
    Yields Q (m >>= k) := by
  intro s s' es y h
  cases hms : m s with
  | none =>
      rw [bind_of_none k hms] at h
      exact nomatch h
  | some a =>
      obtain ⟨r, s₁, es₁⟩ := a
      cases r with
      | error v =>
          rw [bind_of_error k hms] at h
          exact nomatch h
      | ok x =>
          rw [bind_of_ok k hms] at h
          obtain ⟨⟨r, s₂, es₂⟩, hb, heq⟩ := Option.map_eq_some_iff.mp h
          cases heq
          exact hk x (hm hms) hb

/-- Nothing is asked of the first run. -/
theorem Yields.of_rest
    {m : Run W α} {k : α → Run W β} (hk : ∀ x, Yields Q (k x)) : Yields Q (m >>= k) :=
  Yields.bind (P := fun _ => True) (fun _ _ _ _ _ => trivial) fun x _ => hk x

theorem Yields.attempt
    {m : Run W α} (h : Yields P m) : Yields (fun r => ∀ x, r = .ok x → P x) (attempt m) := by
  intro s s' es r hr x hx
  obtain ⟨⟨r', s₁, es₁⟩, hm, heq⟩ := Option.map_eq_some_iff.mp hr
  cases heq
  subst hx
  exact h hm

theorem Yields.guarded
    {region cleanup : Run W Completion} {handler : Value → Run W Completion}
    {P : Completion → Prop} (hregion : Yields P region) (hhandler : ∀ v, Yields P (handler v))
    (hcleanup : Yields P cleanup) : Yields P (guarded region handler cleanup) := by
  have hrecover : ∀ r : Except Value Completion, (∀ c, r = .ok c → P c) →
      Yields (fun r => ∀ c, r = .ok c → P c) (recover handler r) := by
    intro r hr
    cases r with
    | ok c => exact .pure hr
    | error v => exact (hhandler v).attempt
  refine hregion.attempt.bind fun r hr => (hrecover r hr).bind fun r' hr' => ?_
  refine hcleanup.bind fun c hc => ?_
  cases c with
  | normal =>
      cases r' with
      | error v => exact .raise v
      | ok c => exact .pure (hr' c rfl)
  | returned vs | broke | continued => exact .pure hc

/-- A property of what loops end with. -/
theorem Yields.forEach
    {P : Completion → Prop} {turn : Value → Run W (Option Completion)} (hnormal : P .normal)
    (hturn : ∀ v, Yields (fun ended => ∀ c, ended = some c → P c) (turn v)) (vs : List Value) :
    Yields P (forEach turn vs) := by
  induction vs with
  | nil => exact .pure hnormal
  | cons v vs ih =>
      refine (hturn v).bind fun ended hended => ?_
      cases ended with
      | none => exact ih
      | some c => exact .pure (hended c rfl)

theorem Yields.iterate
    {P : Completion → Prop} {turn : Run W (Option Completion)} (rt : Runtime W)
    (hturn : Yields (fun ended => ∀ c, ended = some c → P c) turn) (n : Nat) :
    Yields P ((rt.engine n).iterate turn) := by
  induction n with
  | zero => exact fun _ _ _ _ h => nomatch h
  | succ n ih =>
      refine hturn.bind fun ended hended => ?_
      cases ended with
      | none => exact ih
      | some c => exact .pure (hended c rfl)

end Run

/-! ## Statements without `continue` -/

mutual

/-- The statement has a `continue` for the loop around it.  An initialiser still belongs to the
outer loop. -/
def Stmt.continues : Stmt → Bool
  | .continueLoop => true
  | .block b => Stmt.continuesList b
  | .ifElse _ c a => c.continues || Stmt.continuesOption a
  | .forLoop i _ _ _ => Stmt.continuesOption i
  | .tryCatch b _ h f => b.continues || (Stmt.continuesOption h || Stmt.continuesOption f)
  | _ => false

def Stmt.continuesList : List Stmt → Bool
  | [] => false
  | s :: ss => s.continues || Stmt.continuesList ss

def Stmt.continuesOption : Option Stmt → Bool
  | none => false
  | some s => s.continues

end

theorem Completion.afterTurn_ne_continued
    (c c' : Completion) (h : c.afterTurn = some c') : c' ≠ .continued := by
  cases c <;> cases h <;> nofun

section

variable (rt : Runtime W) (n : Nat)

open Run (Yields)

mutual

/-- A statement without `continue` does not end with it. -/
theorem Stmt.yields_exec
    (env : Env) : (s : Stmt) → s.continues = false →
    Yields (fun r => r.1 ≠ .continued) (s.exec rt (rt.engine n) env)
  | .expr _, _ => by
      rw [Stmt.exec]
      exact .of_rest fun _ => .pure nofun
  | .declare .., _ => by
      rw [Stmt.exec]
      exact .of_rest fun _ => .of_rest fun _ => .pure nofun
  | .destructure .., _ => by
      rw [Stmt.exec]
      exact .of_rest fun _ => .of_rest fun _ => .of_rest fun _ => .pure nofun
  | .block b, h => by
      rw [Stmt.continues] at h
      rw [Stmt.exec]
      exact (Stmt.yields_execList env b h).bind fun _ hc => .pure hc
  | .ifElse t c a, h => by
      rw [Stmt.continues, Bool.or_eq_false_iff] at h
      rw [Stmt.exec]
      refine .of_rest fun v => ?_
      split
      · exact (Stmt.yields_exec env c h.1).bind fun _ hr => .pure hr
      · exact (Stmt.yields_execOption env a h.2).bind fun _ hr => .pure hr
  | .whileLoop t b, _ => by
      rw [Stmt.exec]
      refine Yields.bind (.iterate rt (.of_rest fun v => ?_) n) fun _ hc => .pure hc
      split
      · exact .of_rest fun r => .pure r.1.afterTurn_ne_continued
      · exact .pure (Completion.afterTurn_ne_continued .broke)
  | .forLoop i t u b, h => by
      rw [Stmt.continues] at h
      rw [Stmt.exec]
      refine (Stmt.yields_execOption env i h).bind fun r hr => ?_
      obtain ⟨c, ds⟩ := r
      cases c with
      | normal =>
          refine Yields.bind (.iterate rt (.of_rest fun v => ?_) n) fun _ hc => .pure hc
          split
          · refine .of_rest fun r => ?_
            cases hturn : r.1.afterTurn with
            | none => exact .of_rest fun _ => .pure nofun
            | some c =>
                exact .pure fun c' hc' => r.1.afterTurn_ne_continued c' (hturn.trans hc')
          · exact .pure (Completion.afterTurn_ne_continued .broke)
      | returned vs | broke | continued => exact .pure hr
  | .forEach x i b, _ => by
      rw [Stmt.exec]
      refine .of_rest fun v => .of_rest fun vs => ?_
      refine Yields.bind (.forEach nofun (fun v => ?_) vs) fun _ hc => .pure hc
      exact .of_rest fun _ => .of_rest fun r => .pure r.1.afterTurn_ne_continued
  | .ret none, _ => by
      rw [Stmt.exec]
      exact .pure nofun
  | .ret (some e), _ => by
      rw [Stmt.exec]
      exact .of_rest fun _ => .pure nofun
  | .breakLoop, _ => by
      rw [Stmt.exec]
      exact .pure nofun
  | .continueLoop, h => by
      rw [Stmt.continues] at h
      exact absurd h (by decide)
  | .throw e, _ => by
      rw [Stmt.exec]
      exact .of_rest fun v => .raise v
  | .tryCatch b x c f, h => by
      rw [Stmt.continues, Bool.or_eq_false_iff, Bool.or_eq_false_iff] at h
      rw [Stmt.exec]
      refine Yields.bind (.guarded ?_ (Stmt.yields_handle env x c h.2.1) ?_) fun _ hc => .pure hc
      · exact (Stmt.yields_exec env b h.1).bind fun _ hr => .pure hr
      · exact (Stmt.yields_execOption env f h.2.2).bind fun _ hr => .pure hr
  | .function f, _ => by
      rw [Stmt.exec]
      exact .of_rest fun _ => .of_rest fun _ => .pure nofun
  | .holding _, _ => by
      rw [Stmt.exec]
      exact fun _ _ _ _ h => nomatch h

theorem Stmt.yields_execList
    (env : Env) : (ss : List Stmt) → Stmt.continuesList ss = false →
    Yields (· ≠ .continued) (Stmt.execList rt (rt.engine n) env ss)
  | [], _ => by
      rw [Stmt.execList]
      exact .pure nofun
  | s :: ss, h => by
      rw [Stmt.continuesList, Bool.or_eq_false_iff] at h
      rw [Stmt.execList]
      refine (Stmt.yields_exec env s h.1).bind fun r hr => ?_
      obtain ⟨c, ds⟩ := r
      cases c with
      | normal => exact Stmt.yields_execList (env.extend ds) ss h.2
      | returned vs | broke | continued => exact .pure hr

theorem Stmt.yields_execOption
    (env : Env) : (s : Option Stmt) → Stmt.continuesOption s = false →
    Yields (fun r => r.1 ≠ .continued) (Stmt.execOption rt (rt.engine n) env s)
  | none, _ => by
      rw [Stmt.execOption]
      exact .pure nofun
  | some s, h => by
      rw [Stmt.execOption]
      exact Stmt.yields_exec env s h

theorem Stmt.yields_handle
    (env : Env) (x : Option String) :
    (s : Option Stmt) → Stmt.continuesOption s = false → (v : Value) →
    Yields (· ≠ .continued) (Stmt.handle rt (rt.engine n) env x s v)
  | none, _, v => by
      rw [Stmt.handle]
      exact .raise v
  | some s, h, v => by
      cases x with
      | none =>
          rw [Stmt.handle]
          exact (Stmt.yields_exec env s h).bind fun r hr => .pure hr
      | some x =>
          rw [Stmt.handle]
          exact .of_rest fun i => (Stmt.yields_exec (env.set x i) s h).bind fun r hr => .pure hr

end

end

end Bracket
