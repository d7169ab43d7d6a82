import Bracket.Proofs.Execution.Basic

/-!
# Loops step by step

A loop goes through evaluations of its test, runs of its body and evaluations of its update.
The meaning of statements says what a loop ends with, but not on which way.  Here a loop is a
machine that stands before its test, its body or its update, or has ended; each of its steps
is one evaluation or run, with its whole answer.  So there are runs that have not ended, and
also runs that never do are compared by what they go through.

The main statements are that a loop has an answer exactly if its machine comes to an end, with
the events of the steps on the way, and that two loops which differ in their updates have the
same runs exactly as long as no step takes them apart.
-/

namespace Bracket

variable {W : Type}

/-! ## The laws of runs -/

section

variable {α β γ : Type}

theorem Run.bind_assoc
    (m : Run W α) (k : α → Run W β) (l : β → Run W γ) :
    (m >>= k) >>= l = m >>= fun a => k a >>= l := by
  ext1
  funext s
  cases hm : m s with
  | none => rw [bind_of_none _ (bind_of_none k hm), bind_of_none _ hm]
  | some a =>
      obtain ⟨r, s', es⟩ := a
      cases r with
      | error v => rw [bind_of_error _ (bind_of_error k hm), bind_of_error _ hm]
      | ok a =>
          have hfirst : (m >>= k) s = (k a s').map (Answer.after es) := bind_of_ok k hm
          rw [bind_of_ok _ hm]
          cases hk : k a s' with
          | none =>
              rw [hk] at hfirst
              rw [bind_of_none _ hfirst, bind_of_none _ hk]
              rfl
          | some b =>
              obtain ⟨r', s'', es'⟩ := b
              rw [hk] at hfirst
              cases r' with
              | error v =>
                  rw [bind_of_error _ hfirst, bind_of_error _ hk]
                  rfl
              | ok b =>
                  rw [bind_of_ok _ hfirst, bind_of_ok _ hk, Option.map_map]
                  congr 1
                  funext c
                  simp [Answer.after]

instance : LawfulMonad (Run W) :=
  LawfulMonad.mk' (Run W) Run.bind_pure
    (fun a k => Run.ext (funext fun s => Run.bind_of_silent k (Run.pure_apply a s)))
    Run.bind_assoc

end

/-! ## Loops as machines -/

/-- The parts of a loop, each as a run for every number of steps, and the completions of the
body after which the update is evaluated, unless they end the loop. -/
structure Loop (W : Type) where
  truthy : Value → Bool
  test : Nat → Run W Value
  body : Nat → Run W Completion
  update : Nat → Run W Value
  updates : Completion → Bool

namespace Loop

/-- Where a loop stands. -/
inductive Point (W : Type) where
  | test (s : State W)
  | body (s : State W)
  | update (s : State W)
  | ended (result : Except Value Completion) (s : State W)

/-- Where a loop stands after a part that gave an answer. -/
def Point.after {α : Type} (go : α → State W → Point W) : Answer W α → Point W
  | ⟨.ok x, s, _⟩ => go x s
  | ⟨.error v, s, _⟩ => .ended (.error v) s

/-- A step of a loop and what it ends with. -/
inductive Step (W : Type) where
  | test (a : Answer W Value)
  | body (a : Answer W Completion)
  | update (a : Answer W Value)

namespace Step

def events : Step W → List Event
  | .test a => a.events
  | .body a => a.events
  | .update a => a.events

/-- The step is a run of the body that goes on with the next turn at once. -/
def Continues : Step W → Prop
  | .body a => a.result = .ok .continued
  | _ => False

end Step

variable (L : Loop W)

/-- Where the loop stands after its test. -/
def afterTest (v : Value) (s : State W) : Point W :=
  if L.truthy v then .body s else .ended (.ok .normal) s

/-- Where the loop stands after its body. -/
def afterBody (c : Completion) (s : State W) : Point W :=
  match c.afterTurn with
  | some c' => .ended (.ok c') s
  | none => if L.updates c then .update s else .test s

/-- Where the loop stands after a step. -/
def next : Step W → Point W
  | .test a => .after L.afterTest a
  | .body a => .after L.afterBody a
  | .update a => .after (fun _ => .test) a

/-- The loop can make the step where it stands. -/
def Allows : Point W → Step W → Prop
  | .test s, .test a => ∃ n, L.test n s = some a
  | .body s, .body a => ∃ n, L.body n s = some a
  | .update s, .update a => ∃ n, L.update n s = some a
  | _, _ => False

/-- The loop goes through steps from one point to another. -/
def Runs : Point W → List (Step W) → Point W → Prop
  | p, [], q => q = p
  | p, step :: steps, q => L.Allows p step ∧ Runs (L.next step) steps q

/-- The events of steps. -/
def events (steps : List (Step W)) : List Event := steps.flatMap Step.events

/-- From the point the loop comes to its end with the answer. -/
def Ends (p : Point W) (a : Answer W Completion) : Prop :=
  ∃ steps, L.Runs p steps (.ended a.result a.state) ∧ a.events = events steps

/-- What a turn does after the body. -/
def finish (n : Nat) (c : Completion) : Run W (Option Completion) :=
  match c.afterTurn with
  | some c' => pure (some c')
  | none =>
      if L.updates c then do
        let _ ← L.update n
        pure none
      else pure none

/-- One turn of the loop. -/
def turn (n : Nat) : Run W (Option Completion) := do
  let v ← L.test n
  if L.truthy v then do
    let c ← L.body n
    L.finish n c
  else pure (some .normal)

/-- More steps keep the answers of all parts. -/
structure Steady : Prop where
  test : ∀ {n n' s a}, n ≤ n' → L.test n s = some a → L.test n' s = some a
  body : ∀ {n n' s a}, n ≤ n' → L.body n s = some a → L.body n' s = some a
  update : ∀ {n n' s a}, n ≤ n' → L.update n s = some a → L.update n' s = some a

/-! ## The rest of a loop -/

section

variable (rt : Runtime W) (n k : Nat)

/-- The loop goes on after a turn. -/
def proceed : Option Completion → Run W Completion
  | some c => pure c
  | none => (rt.engine k).iterate (L.turn n)

/-- What the loop still does from where it stands. -/
def rest : Point W → Option (Answer W Completion)
  | .test s => (rt.engine k).iterate (L.turn n) s
  | .body s => (L.body n >>= fun c => L.finish n c >>= L.proceed rt n k) s
  | .update s => (L.update n >>= fun _ => L.proceed rt n k none) s
  | .ended r s => some ⟨r, s, []⟩

/-- The rest of the loop after a part. -/
def restAfter {α : Type} (go : α → State W → Point W) (part : Option (Answer W α)) :
    Option (Answer W Completion) :=
  part.bind fun b => (L.rest rt n k (.after go b)).map (Answer.after b.events)

theorem bind_eq_restAfter
    {α : Type} {go : α → State W → Point W} {l : α → Run W Completion} (m : Run W α)
    (hl : ∀ x s, l x s = L.rest rt n k (go x s)) (s : State W) :
    (m >>= l) s = L.restAfter rt n k go (m s) := by
  cases hm : m s with
  | none => exact Run.bind_of_none _ hm
  | some b =>
      obtain ⟨r, s', es⟩ := b
      cases r with
      | error v =>
          rw [Run.bind_of_error _ hm]
          simp [restAfter, Point.after, rest]
      | ok x =>
          rw [Run.bind_of_ok _ hm, hl]
          rfl

theorem rest_update
    (s : State W) :
    L.rest rt n k (.update s) = L.restAfter rt n k (fun _ => .test) (L.update n s) :=
  L.bind_eq_restAfter rt n k _ (fun _ _ => rfl) s

theorem rest_body
    (s : State W) :
    L.rest rt n k (.body s) = L.restAfter rt n k L.afterBody (L.body n s) := by
  refine L.bind_eq_restAfter rt n k _ (fun c s' => ?_) s
  rw [finish, afterBody]
  cases c.afterTurn with
  | some c' => rw [pure_bind]; rfl
  | none =>
      cases L.updates c with
      | false => rw [if_neg (by simp), if_neg (by simp), pure_bind]; rfl
      | true =>
          simp only [if_true, bind_assoc, pure_bind]
          rfl

theorem rest_test
    (s : State W) :
    L.rest rt n (k + 1) (.test s) = L.restAfter rt n k L.afterTest (L.test n s) := by
  have hturn : (rt.engine (k + 1)).iterate (L.turn n) = L.turn n >>= L.proceed rt n k := by
    rw [Runtime.engine]
    congr
  rw [rest, hturn, turn, bind_assoc]
  refine L.bind_eq_restAfter rt n k _ (fun v s' => ?_) s
  rw [afterTest]
  cases L.truthy v with
  | false => rw [if_neg (by simp), if_neg (by simp), pure_bind]; rfl
  | true =>
      simp only [if_true, bind_assoc]
      rfl

end

/-! ## The end of a loop -/

variable {L} {rt : Runtime W} {p q : Point W} {s : State W} {a : Answer W Completion}
  {n k : Nat}

theorem Ends.of_step
    (step : Step W) (hstep : L.Allows p step) (h : L.Ends (L.next step) a) :
    L.Ends p (a.after step.events) := by
  obtain ⟨steps, hruns, hevents⟩ := h
  refine ⟨step :: steps, ⟨hstep, hruns⟩, ?_⟩
  rw [events, List.flatMap_cons, ← events, ← hevents]
  rfl

theorem Ends.of_rest_ended
    {r : Except Value Completion} (h : L.rest rt n k (.ended r s) = some a) :
    L.Ends (.ended r s) a := by
  cases h
  exact ⟨[], rfl, rfl⟩

theorem Ends.of_rest_after
    {α : Type} {go : α → State W → Point W} {b : Answer W α}
    (hgo : ∀ x s a, L.rest rt n k (go x s) = some a → L.Ends (go x s) a)
    (h : L.rest rt n k (.after go b) = some a) : L.Ends (.after go b) a := by
  obtain ⟨r, s, es⟩ := b
  cases r with
  | error v => exact .of_rest_ended h
  | ok x => exact hgo x s a h

/-! The three parts, each from what follows it: the update and the body from the test, and the
test from a body with one turn less. -/

theorem Ends.of_rest_update
    (htest : ∀ s a, L.rest rt n k (.test s) = some a → L.Ends (.test s) a)
    (h : L.rest rt n k (.update s) = some a) : L.Ends (.update s) a := by
  rw [rest_update, restAfter] at h
  obtain ⟨b, hstep, h⟩ := Option.bind_eq_some_iff.mp h
  obtain ⟨c, hrest, rfl⟩ := Option.map_eq_some_iff.mp h
  exact .of_step (.update b) ⟨n, hstep⟩ (.of_rest_after (fun _ => htest) hrest)

theorem Ends.of_rest_body
    (htest : ∀ s a, L.rest rt n k (.test s) = some a → L.Ends (.test s) a)
    (h : L.rest rt n k (.body s) = some a) : L.Ends (.body s) a := by
  rw [rest_body, restAfter] at h
  obtain ⟨b, hstep, h⟩ := Option.bind_eq_some_iff.mp h
  obtain ⟨c, hrest, rfl⟩ := Option.map_eq_some_iff.mp h
  refine .of_step (.body b) ⟨n, hstep⟩ (.of_rest_after (fun c s a h => ?_) hrest)
  rw [afterBody] at h ⊢
  cases hturn : c.afterTurn with
  | some c' =>
      rw [hturn] at h
      exact .of_rest_ended h
  | none =>
      rw [hturn] at h
      cases hupdates : L.updates c with
      | false =>
          rw [hupdates] at h
          exact htest s a h
      | true =>
          rw [hupdates] at h
          exact .of_rest_update htest h

theorem Ends.of_rest_test
    (h : L.rest rt n k (.test s) = some a) : L.Ends (.test s) a := by
  induction k generalizing s a with
  | zero => exact nomatch h
  | succ k ih =>
      rw [rest_test, restAfter] at h
      obtain ⟨b, hstep, h⟩ := Option.bind_eq_some_iff.mp h
      obtain ⟨c, hrest, rfl⟩ := Option.map_eq_some_iff.mp h
      refine .of_step (.test b) ⟨n, hstep⟩ (.of_rest_after (fun v s a h => ?_) hrest)
      rw [afterTest] at h ⊢
      cases htrue : L.truthy v with
      | false =>
          rw [htrue] at h
          exact .of_rest_ended h
      | true =>
          rw [htrue] at h
          exact .of_rest_body (fun _ _ => ih) h

/-- What a step leaves to do answers for the whole; the step takes at most one turn more. -/
theorem rest_of_step
    (hL : L.Steady) {step : Step W} (hstep : L.Allows p step)
    (h : ∃ N, ∀ n k, N ≤ n → N ≤ k → L.rest rt n k (L.next step) = some a) :
    ∃ N, ∀ n k, N ≤ n → N ≤ k → L.rest rt n k p = some (a.after step.events) := by
  obtain ⟨N, h⟩ := h
  cases p with
  | ended r s => exact hstep.elim
  | test s =>
      cases step with
      | body b | update b => exact hstep.elim
      | test b =>
          obtain ⟨m, hm⟩ := hstep
          refine ⟨max (N + 1) m, fun n k hn hk => ?_⟩
          obtain ⟨k, rfl⟩ : ∃ k', k = k' + 1 := ⟨k - 1, by omega⟩
          have hrest : L.rest rt n k (.after L.afterTest b) = some a :=
            h n k (by omega) (by omega)
          rw [rest_test, restAfter, hL.test (by omega) hm, Option.bind_some, hrest]
          rfl
  | body s =>
      cases step with
      | test b | update b => exact hstep.elim
      | body b =>
          obtain ⟨m, hm⟩ := hstep
          refine ⟨max N m, fun n k hn hk => ?_⟩
          have hrest : L.rest rt n k (.after L.afterBody b) = some a :=
            h n k (by omega) (by omega)
          rw [rest_body, restAfter, hL.body (by omega) hm, Option.bind_some, hrest]
          rfl
  | update s =>
      cases step with
      | test b | body b => exact hstep.elim
      | update b =>
          obtain ⟨m, hm⟩ := hstep
          refine ⟨max N m, fun n k hn hk => ?_⟩
          have hrest : L.rest rt n k (.after (fun _ => .test) b) = some a :=
            h n k (by omega) (by omega)
          rw [rest_update, restAfter, hL.update (by omega) hm, Option.bind_some, hrest]
          rfl

/-- What is left of a loop that comes to its end has its answer. -/
theorem Ends.exists_rest
    (hL : L.Steady) (rt : Runtime W) (h : L.Ends p a) :
    ∃ N, ∀ n k, N ≤ n → N ≤ k → L.rest rt n k p = some a := by
  obtain ⟨steps, hruns, hevents⟩ := h
  induction steps generalizing p a with
  | nil =>
      obtain ⟨r, s, es⟩ := a
      cases hruns
      cases hevents
      exact ⟨0, fun _ _ _ _ => rfl⟩
  | cons step steps ih =>
      obtain ⟨r, s, es⟩ := a
      have hrest := ih (a := ⟨r, s, events steps⟩) hruns.2 rfl
      obtain rfl : es = step.events ++ events steps := hevents
      exact rest_of_step hL hruns.1 hrest

/-- A loop that has an answer comes to its end with it. -/
theorem Ends.of_iterate
    (h : (rt.engine n).iterate (L.turn n) s = some a) : L.Ends (.test s) a :=
  .of_rest_test h

/-- A loop that comes to its end has its answer from some number of steps on. -/
theorem Ends.exists_iterate
    (hL : L.Steady) (rt : Runtime W) (h : L.Ends (.test s) a) :
    ∃ N, ∀ n, N ≤ n → (rt.engine n).iterate (L.turn n) s = some a := by
  obtain ⟨N, hN⟩ := h.exists_rest hL rt
  exact ⟨N, fun n hn => hN n n hn hn⟩

/-- What holds where a loop stands and is kept by its steps holds all along. -/
theorem Runs.invariant
    {I : Point W → Prop} {steps : List (Step W)}
    (hstep : ∀ p step, I p → L.Allows p step → I (L.next step)) (hp : I p)
    (h : L.Runs p steps q) : I q := by
  induction steps generalizing p with
  | nil => exact (h : q = p) ▸ hp
  | cons step steps ih => exact ih (hstep p step hp h.1) h.2

/-! ## Loops with other updates -/

/-- The same loop with its update after other completions of the body. -/
def withUpdates (L : Loop W) (updates : Completion → Bool) : Loop W := { L with updates }

variable {f : Completion → Bool} {steps : List (Step W)}

theorem allows_withUpdates
    {step : Step W} : (L.withUpdates f).Allows p step ↔ L.Allows p step := by
  cases p <;> cases step <;> exact .rfl

/-- Only after the body the two loops can part, and then one of them stands before its update
and the other one before its test. -/
theorem next_withUpdates
    (L : Loop W) (f : Completion → Bool) (step : Step W) :
    (L.withUpdates f).next step = L.next step ∨
      ∃ s, ((L.withUpdates f).next step = .update s ∧ L.next step = .test s) ∨
        ((L.withUpdates f).next step = .test s ∧ L.next step = .update s) := by
  cases step with
  | test b | update b => exact .inl rfl
  | body b =>
      obtain ⟨r, s, es⟩ := b
      cases r with
      | error v => exact .inl rfl
      | ok c =>
          cases hturn : c.afterTurn with
          | some c' =>
              left
              simp only [next, Point.after, afterBody, hturn]
          | none =>
              cases hf : f c <;> cases hL : L.updates c <;>
                simp [next, Point.after, afterBody, withUpdates, hturn, hf, hL]

/-- No steps lead from an update and from a test to the same point. -/
theorem Runs.ne_of_update_test
    {L' : Loop W} {s' : State W} (h : L.Runs (.update s) steps q)
    (h' : L'.Runs (.test s') steps q) : False := by
  cases steps with
  | nil => exact nomatch (h : q = .update s).symm.trans h'
  | cons step steps =>
      have hupdate := h.1
      have htest := h'.1
      cases step with
      | test b | body b => exact hupdate
      | update b => exact htest

/-- A run of one loop is one of the other exactly as long as the two do not part. -/
theorem Runs.withUpdates_iff
    (h : L.Runs p steps q) :
    (L.withUpdates f).Runs p steps q ↔
      ∀ step ∈ steps, (L.withUpdates f).next step = L.next step := by
  induction steps generalizing p with
  | nil => exact ⟨fun _ => nofun, fun _ => h⟩
  | cons step steps ih =>
      have hnext := ih h.2
      rw [Runs, allows_withUpdates, List.forall_mem_cons, and_iff_right h.1]
      rcases L.next_withUpdates f step with heq | ⟨s, ⟨hf, hL⟩ | ⟨hf, hL⟩⟩
      · rw [heq, hnext]
        simp
      · have hruns := h.2
        rw [hL] at hruns
        rw [hf, hL]
        exact ⟨fun h' => (h'.ne_of_update_test hruns).elim, fun h' => nomatch h'.1⟩
      · have hruns := h.2
        rw [hL] at hruns
        rw [hf, hL]
        exact ⟨fun h' => (hruns.ne_of_update_test h').elim, fun h' => nomatch h'.1⟩

/-- Every step of a run is allowed where it is made. -/
theorem Runs.exists_allows
    (h : L.Runs p steps q) : ∀ step ∈ steps, ∃ p, L.Allows p step := by
  induction steps generalizing p with
  | nil => exact nofun
  | cons step steps ih => exact List.forall_mem_cons.mpr ⟨⟨p, h.1⟩, ih h.2⟩

end Loop

end Bracket
