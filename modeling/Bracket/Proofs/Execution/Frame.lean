import Bracket.Proofs.Execution.Related

/-!
# Steps and other variables

One simulation, in which the variables of a run stand among other variables of a
second run.  The second run changes none of the others, and it may have more
steps.

With the variables where they are, this says that a run keeps its answer when it
is given more steps, so that code has at most one answer.  With variables
elsewhere, it says that code runs alike among variables that it does not know of,
also if its functions declare further variables of the same names.
-/

namespace Bracket

variable {W : Type} {rt : Runtime W} {env env' : Env}

/-! ## Variables among others -/

/-- The variables of the first state stand among those of the second, each new one
behind all others. -/
structure State.Tracks
    (A : String → Option Nat → Prop) (place : Placement) (s S : State W) : Prop where
  world : S.world = s.world
  admitted : s.Admitted A
  vars : ∀ x i, i < (s.vars x).length →
    (S.vars x)[place x i]? = (s.vars x)[i]?.map (Variable.move place)
  distinct : ∀ x i j, place x i = place x j → i = j
  fresh : ∀ x i, (s.vars x).length ≤ i →
    place x i = (S.vars x).length + (i - (s.vars x).length)

namespace State.Tracks

variable {A : String → Option Nat → Prop} {place : Placement} {s S : State W} {x : String}
  {i : Nat} {v : Value}

theorem place_length (h : s.Tracks A place S) : place x (s.vars x).length = (S.vars x).length := by
  rw [h.fresh x _ (Nat.le_refl _), Nat.sub_self, Nat.add_zero]

theorem place_lt (h : s.Tracks A place S) (hi : i < (s.vars x).length) :
    place x i < (S.vars x).length := by
  have hget := h.vars x i hi
  rw [List.getElem?_eq_getElem hi, Option.map_some] at hget
  exact (List.getElem?_eq_some_iff.mp hget).1

/-- All new variables have a place, so that the others are among the old ones. -/
theorem lt_of_forall_ne
    (h : s.Tracks A place S) {j : Nat} (hj : ∀ i, place x i ≠ j) : j < (S.vars x).length := by
  refine Nat.lt_of_not_le fun hle => ?_
  have hfresh := h.fresh x ((s.vars x).length + (j - (S.vars x).length)) (Nat.le_add_right _ _)
  exact hj ((s.vars x).length + (j - (S.vars x).length)) (by omega)

theorem declare (h : s.Tracks A place S) (hv : v.Admitted A) (m : Bool) :
    (s.declare m x v).Tracks A place (S.declare m x (v.move place)) where
  world := h.world
  admitted := h.admitted.declare hv m
  distinct := h.distinct
  vars y i hi := by
    by_cases hold : i < (s.vars y).length
    · rw [declare_vars_of_lt S m _ (h.place_lt hold), declare_vars_of_lt s m v hold]
      exact h.vars y i hold
    · by_cases hy : y = x
      · subst hy
        rw [declare_vars_self, List.length_append, List.length_singleton] at hi
        obtain rfl : i = (s.vars y).length := by omega
        rw [h.place_length, declare_vars_self, declare_vars_self, List.getElem?_concat_length,
          List.getElem?_concat_length]
        rfl
      · rw [declare_vars_of_ne s m v hy] at hi
        exact absurd hi hold
  fresh y i hi := by
    by_cases hy : y = x
    · subst hy
      rw [declare_vars_self, List.length_append, List.length_singleton] at hi
      rw [declare_vars_self, declare_vars_self, List.length_append, List.length_append,
        List.length_singleton, List.length_singleton, h.fresh y i (by omega)]
      omega
    · rw [declare_vars_of_ne s m v hy] at hi
      rw [declare_vars_of_ne s m v hy, declare_vars_of_ne S m _ hy]
      exact h.fresh y i hi

theorem assign
    (h : s.Tracks A place S) (hv : v.Admitted A) (hi : i < (s.vars x).length) :
    (s.assign x i v).Tracks A place (S.assign x (place x i) (v.move place)) where
  world := h.world
  admitted := h.admitted.assign hv i
  distinct := h.distinct
  vars y j hj := by
    rw [length_vars_assign] at hj
    by_cases hsame : y = x ∧ j = i
    · obtain ⟨rfl, rfl⟩ := hsame
      rw [assign_vars_index, assign_vars_index, h.vars y j hi]
      cases (s.vars y)[j]? <;> rfl
    · rw [assign_vars_of_ne_index s v fun hy hji => hsame ⟨hy, hji⟩,
        assign_vars_of_ne_index S _ fun hy hji => ?_]
      · exact h.vars y j hj
      · subst hy
        exact hsame ⟨rfl, h.distinct _ _ _ hji⟩
  fresh y j hj := by
    rw [length_vars_assign] at hj ⊢
    rw [length_vars_assign]
    exact h.fresh y j hj

theorem withWorld (h : s.Tracks A place S) (w : W) :
    State.Tracks A place { s with world := w } { S with world := w } :=
  ⟨rfl, h.admitted, h.vars, h.distinct, h.fresh⟩

end State.Tracks

/-- The second answer is that of the first with variables where they stand in the
second run, which has left other variables of its state alone. -/
structure Answer.Tracks
    {α : Type} (A : String → Option Nat → Prop) (place : Placement) (R : α → α → Prop)
    (S : State W) (a a' : Answer W α) : Prop where
  events : a'.events = a.events
  state : a.state.Tracks A place a'.state
  others : ∀ x j, (∀ i, place x i ≠ j) → (a'.state.vars x)[j]? = (S.vars x)[j]?
  result : Except.Related (Value.Alike A place) R a.result a'.result

/-- What the first run answers, the second one does with variables where they stand
there, as long as the first has no more variables than the limits say. -/
def Run.Tracked
    {α : Type} (A : String → Option Nat → Prop) (place : Placement) (limit : String → Nat)
    (R : α → α → Prop) (m m' : Run W α) : Prop :=
  ∀ s S a, s.Tracks A place S → m s = some a → (∀ x, (a.state.vars x).length ≤ limit x) →
    ∃ a', m' S = some a' ∧ a.Tracks A place R S a'

namespace Run.Tracked

variable {A : String → Option Nat → Prop} {place : Placement} {limit : String → Nat}
  {α β : Type} {R : α → α → Prop}

theorem pure {a a' : α} (h : R a a') :
    Tracked (W := W) A place limit R (Pure.pure a) (Pure.pure a') := by
  rintro s S _ htracks ⟨⟩ _
  exact ⟨_, rfl, rfl, htracks, fun _ _ _ => rfl, .ok h⟩

theorem bind
    {Q : β → β → Prop} {m m' : Run W α} {k k' : α → Run W β} (hm : Tracked A place limit R m m')
    (hk : ∀ a a', R a a' → Tracked A place limit Q (k a) (k' a')) :
    Tracked A place limit Q (m >>= k) (m' >>= k') := by
  intro s S c htracks h hlimit
  cases hms : m s with
  | none =>
      rw [Run.bind_of_none k hms] at h
      cases h
  | some b =>
      obtain ⟨r, s₁, es⟩ := b
      cases r with
      | error v =>
          rw [Run.bind_of_error k hms] at h
          cases h
          obtain ⟨⟨r', S₁, es'⟩, hms', rfl, hstate, hothers, hresult⟩ :=
            hm s S _ htracks hms hlimit
          cases hresult with
          | error hv => exact ⟨_, Run.bind_of_error k' hms', rfl, hstate, hothers, .error hv⟩
      | ok x =>
          rw [Run.bind_of_ok k hms] at h
          obtain ⟨d, hd, rfl⟩ := Option.map_eq_some_iff.mp h
          -- The rest of the run only adds variables, so the limits hold in the middle too.
          have hlimit₁ : ∀ y, (s₁.vars y).length ≤ limit y :=
            fun y => Nat.le_trans ((k x).grows hd y) (hlimit y)
          obtain ⟨⟨r', S₁, es'⟩, hms', rfl, hstate, hothers, hresult⟩ :=
            hm s S _ htracks hms hlimit₁
          cases hresult with
          | ok hx =>
              obtain ⟨d', hd', hanswer⟩ := hk x _ hx s₁ S₁ d hstate hd hlimit
              refine ⟨d'.after es', ?_, ?_, hanswer.state, fun y j hj => ?_, hanswer.result⟩
              · rw [Run.bind_of_ok k' hms', hd']
                rfl
              · exact congrArg (es' ++ ·) hanswer.events
              · exact (hanswer.others y j hj).trans (hothers y j hj)

theorem act
    {f f' : W → Reply W α} (h : ∀ w, Reply.Related (Value.Alike A place) R (f w) (f' w)) :
    Tracked A place limit R (Run.act f) (Run.act f') := by
  rintro s S _ htracks ⟨⟩ _
  obtain ⟨hresult, hworld, hevents⟩ := h s.world
  refine ⟨_, Run.act_apply _ S, ?_, ?_, fun _ _ _ => rfl, ?_⟩
  · rw [htracks.world]
    exact hevents
  · rw [htracks.world, hworld]
    exact htracks.withWorld _
  · rw [htracks.world]
    exact hresult

theorem attempt
    {m m' : Run W α} (h : Tracked A place limit R m m') :
    Tracked A place limit (Except.Related (Value.Alike A place) R) m.attempt m'.attempt := by
  intro s S c htracks hc hlimit
  obtain ⟨b, hb, rfl⟩ := Option.map_eq_some_iff.mp hc
  obtain ⟨b', hb', hanswer⟩ := h s S b htracks hb hlimit
  exact ⟨_, Run.attempt_of_answer hb', hanswer.events, hanswer.state, hanswer.others,
    .ok hanswer.result⟩

theorem read (x : String) (i : Nat) :
    Tracked (W := W) A place limit (Value.Alike A place)
      (Run.read x i) (Run.read x (place x i)) := by
  intro s S c htracks h _
  obtain ⟨v, hv, rfl⟩ := Option.map_eq_some_iff.mp h
  obtain ⟨hi, -⟩ := List.getElem?_eq_some_iff.mp hv
  have hmoved := htracks.vars x i hi
  rw [hv] at hmoved
  refine ⟨⟨.ok (v.value.move place), S, []⟩, ?_, rfl, htracks, fun _ _ _ => rfl, .ok ⟨rfl, ?_⟩⟩
  · simp [Run.read, hmoved, Variable.move]
  · exact htracks.admitted x v (List.mem_of_getElem? hv)

/-- A constant refuses the assignment in both runs. -/
theorem write
    {v v' : Value} (denied : Option Datum) (x : String) (i : Nat) (hv : v.Alike A place v') :
    Tracked (W := W) A place limit (fun _ _ => True)
      (Run.write denied x i v) (Run.write denied x (place x i) v') := by
  intro s S c htracks h _
  obtain ⟨rfl, hv⟩ := hv
  obtain ⟨old, hold, hc⟩ := Option.map_eq_some_iff.mp h
  obtain ⟨hi, -⟩ := List.getElem?_eq_some_iff.mp hold
  have hmoved := htracks.vars x i hi
  rw [hold, Option.map_some] at hmoved
  cases hrefusal : old.refusal denied with
  | some e =>
      rw [hrefusal] at hc
      subst hc
      exact ⟨_, Run.write_of_refused hmoved hrefusal _, rfl, htracks, fun _ _ _ => rfl,
        .error (.of_closures_eq_nil e.2)⟩
  | none =>
      rw [hrefusal] at hc
      subst hc
      refine ⟨_, Run.write_of_accepted hmoved hrefusal _, rfl, htracks.assign hv hi,
        fun y j hj => State.assign_vars_of_ne_index S _ fun hy hji => ?_, .ok trivial⟩
      subst hy
      exact hj i hji.symm

/-- A new variable is below the limit, as the run keeps to it. -/
theorem declare
    {x : String} {v v' : Value} (mutable : Bool) (hx : ∀ i, i < limit x → A x (some i))
    (hv : v.Alike A place v') :
    Tracked (W := W) A place limit (fun i i' => i' = place x i ∧ A x (some i))
      (Run.declare mutable x v) (Run.declare mutable x v') := by
  rintro s S _ htracks ⟨⟩ hlimit
  obtain ⟨rfl, hv⟩ := hv
  have hlt : (s.vars x).length < limit x := by
    have hle := hlimit x
    rw [State.declare_vars_self, List.length_append, List.length_singleton] at hle
    exact hle
  refine ⟨_, Run.declare_apply mutable x _ S, rfl, htracks.declare hv mutable, fun y j hj => ?_,
    .ok ⟨htracks.place_length.symm, hx _ hlt⟩⟩
  exact State.declare_vars_of_lt S mutable _ (htracks.lt_of_forall_ne hj)

end Run.Tracked

/-- The second run has the variables of the first one among others, up to a number
of variables that the first one keeps to. -/
def Simulation.placed
    (W : Type) (A : String → Option Nat → Prop) (place : Placement) (limit : String → Nat)
    (hA : ∀ x o i, A x o → i < limit x → A x (some i)) : Simulation W where
  Admits := A
  place := place
  Rel := Run.Tracked A place limit
  fail := fun _ _ _ _ h => nomatch h
  pure := .pure
  bind := .bind
  act := .act
  attempt := .attempt
  read _ := .read _ _
  write _ hv := .write _ _ _ hv
  declare hx hv := .declare _ (fun i => hA _ _ i hx) hv

namespace Simulation

variable {A : String → Option Nat → Prop} {place : Placement} {limit : String → Nat}
  {hA : ∀ x o i, A x o → i < limit x → A x (some i)}

/-- The second run may have more steps. -/
theorem placed_engine
    {n n' : Nat} (h : n ≤ n') :
    (placed W A place limit hA).Engines (rt.engine n) (rt.engine n') := by
  induction n generalizing n' with
  | zero =>
      constructor
      · intro f f' args args' _ _ s S a _ ha
        exact nomatch ha
      · intro turn turn' _ s S a _ ha
        exact nomatch ha
  | succ n ih =>
      obtain ⟨k, rfl⟩ := Nat.exists_eq_add_of_le' h
      exact engine_succ_related (ih (Nat.le_add_left n k))

end Simulation

/-! ## More steps -/

section Steps

variable {Allowed : String → Prop} {s : State W}

/-- A state stands in itself. -/
theorem State.Tracks.refl
    {A : String → Option Nat → Prop} (h : s.Admitted A) : s.Tracks A (fun _ i => i) s where
  world := rfl
  admitted := h
  vars x i _ := by
    have hmove : Variable.move (fun _ i => i) = id := by
      funext v
      rw [Variable.move, Value.move_id, id]
    rw [hmove, Option.map_id_fun, id]
  distinct _ _ _ h := h
  fresh x i h := by omega

theorem State.Tracks.eq_of_id
    {A : String → Option Nat → Prop} {S : State W} (h : s.Tracks A (fun _ i => i) S) : S = s := by
  have hvars : S.vars = s.vars := by
    funext x
    apply List.ext_getElem?
    intro i
    by_cases hi : i < (s.vars x).length
    · rw [h.vars x i hi]
      cases (s.vars x)[i]? with
      | none => rfl
      | some v => rw [Option.map_some, Variable.move, Value.move_id]
    · have hlength : (s.vars x).length = (S.vars x).length := h.place_length
      rw [List.getElem?_eq_none (by omega), List.getElem?_eq_none (by omega)]
  obtain ⟨vars, world⟩ := S
  obtain rfl : vars = s.vars := hvars
  obtain rfl : world = s.world := h.world
  rfl

/-- The simulation for a run to a state, in which variables stand where they are. -/
abbrev Simulation.stepping (Allowed : String → Prop) (s : State W) : Simulation W :=
  placed W (fun x _ => Allowed x) (fun _ i => i) (fun x => (s.vars x).length)
    fun _ _ _ h _ => h

theorem Simulation.agree_stepping
    {names : List String} (h : ∀ x ∈ names, Allowed x ∧ env' x = env x) :
    (stepping Allowed s).Agree names env env' := by
  intro x hx
  obtain ⟨hallowed, henv⟩ := h x hx
  exact ⟨hallowed, henv.trans Option.map_id'.symm⟩

/-- The second run has the answer of the first, where related results are equal.
Functions still mention allowed names only. -/
theorem Simulation.answer_of_stepping
    {α : Type} {R : α → α → Prop} {P : α → Prop} {m m' : Run W α} {a : Answer W α}
    (hrel : (stepping Allowed a.state).Rel R m m') (hR : ∀ x x', R x x' → x' = x ∧ P x)
    (hs : s.Admitted fun x _ => Allowed x) (h : m s = some a) :
    m' s = some a ∧ (a.state.Admitted fun x _ => Allowed x) ∧
      (∀ x, a.result = .ok x → P x) ∧
      ∀ v, a.result = .error v → v.Admitted fun x _ => Allowed x := by
  obtain ⟨a', h', htracks⟩ := hrel s s a (.refl hs) h fun _ => Nat.le_refl _
  obtain ⟨r, s₁, es⟩ := a
  obtain ⟨r', s₁', es'⟩ := a'
  obtain ⟨hevents, hstate, -, hresult⟩ := htracks
  obtain rfl : es' = es := hevents
  obtain rfl : s₁' = s₁ := hstate.eq_of_id
  cases hresult with
  | ok hx =>
      obtain ⟨rfl, hx⟩ := hR _ _ hx
      exact ⟨h', hstate.admitted, by rintro _ ⟨⟩; exact hx, nofun⟩
  | error hv =>
      obtain ⟨rfl, hv⟩ := hv
      rw [Value.move_id] at h'
      exact ⟨h', hstate.admitted, nofun, by rintro _ ⟨⟩; exact hv⟩

/-- An expression with allowed names keeps its answer with more steps, and
functions still mention allowed names only. -/
theorem Expr.one_results_steps
    {n n' : Nat} {e : Expr} {a : Answer W Value} (hs : s.Admitted fun x _ => Allowed x)
    (hnames : ∀ x ∈ e.names, Allowed x ∧ env' x = env x) (hn : n ≤ n')
    (h : (e.results rt (rt.engine n) env).one s = some a) :
    (e.results rt (rt.engine n') env').one s = some a ∧
      a.state.Admitted fun x _ => Allowed x := by
  let S : Simulation W := .stepping Allowed a.state
  have hrel : S.Rel S.AllAlike
      (e.results rt (rt.engine n) env) (e.results rt (rt.engine n') env') :=
    Expr.results_related (Simulation.placed_engine hn) e (Simulation.agree_stepping hnames)
  obtain ⟨h', ha, -⟩ := Simulation.answer_of_stepping (P := fun _ => True) (Simulation.one hrel)
    (fun v v' hv => ⟨hv.1.trans v.move_id, trivial⟩) hs h
  exact ⟨h', ha⟩

/-- Statements with allowed names keep their answer with more steps, and functions
still mention allowed names only. -/
theorem Stmt.execList_steps
    {n n' : Nat} {body : List Stmt} {a : Answer W Completion}
    (hs : s.Admitted fun x _ => Allowed x)
    (hnames : ∀ x ∈ Stmt.namesList body, Allowed x ∧ env' x = env x) (hn : n ≤ n')
    (h : Stmt.execList rt (rt.engine n) env body s = some a) :
    Stmt.execList rt (rt.engine n') env' body s = some a ∧
      (a.state.Admitted fun x _ => Allowed x) ∧
      ∀ v ∈ Ending.values a.result, v.Admitted fun x _ => Allowed x := by
  let S : Simulation W := .stepping Allowed a.state
  have hrel : S.Rel S.Ends (Stmt.execList rt (rt.engine n) env body)
      (Stmt.execList rt (rt.engine n') env' body) :=
    Stmt.execList_related (Simulation.placed_engine hn) env env' body
      (Simulation.agree_stepping hnames)
  obtain ⟨h', ha, hok, herror⟩ := Simulation.answer_of_stepping
    (P := fun c => ∀ v ∈ c.results, v.Admitted fun x _ => Allowed x) hrel
    (fun c c' hc => ⟨hc.1.trans c.move_id, hc.2⟩) hs h
  refine ⟨h', ha, ?_⟩
  cases hr : a.result with
  | ok c => exact hok c hr
  | error v => exact List.forall_mem_singleton.mpr (herror v hr)

theorem Stmt.execOption_mono
    {n n' : Nat} {st : Option Stmt} {a : Answer W (Completion × Declared)} (h : n ≤ n')
    (ha : Stmt.execOption rt (rt.engine n) env st s = some a) :
    Stmt.execOption rt (rt.engine n') env st s = some a := by
  let S : Simulation W := .stepping (fun _ => True) a.state
  have hrel : S.Rel S.Finishes (Stmt.execOption rt (rt.engine n) env st)
      (Stmt.execOption rt (rt.engine n') env st) :=
    Stmt.execOption_related (Simulation.placed_engine h) env env st
      (Simulation.agree_stepping fun _ _ => ⟨trivial, rfl⟩)
  refine (Simulation.answer_of_stepping (P := fun _ => True) hrel ?_
    (fun _ _ _ _ _ _ _ => trivial) ha).1
  rintro ⟨c, ds⟩ ⟨_, _⟩ ⟨⟨rfl, -⟩, ⟨rfl, -⟩⟩
  exact ⟨Prod.ext c.move_id (List.map_id' ds), trivial⟩

theorem Expr.one_results_mono
    {n n' : Nat} {e : Expr} {a : Answer W Value} (h : n ≤ n')
    (ha : (e.results rt (rt.engine n) env).one s = some a) :
    (e.results rt (rt.engine n') env).one s = some a :=
  (Expr.one_results_steps (fun _ _ _ _ _ _ _ => trivial)
    (fun _ _ => ⟨trivial, rfl⟩) h ha).1

theorem Expr.valueOption_mono
    {n n' : Nat} {missing : Value} {e : Option Expr} {a : Answer W Value}
    (h : n ≤ n') (ha : Expr.valueOption rt (rt.engine n) env missing e s = some a) :
    Expr.valueOption rt (rt.engine n') env missing e s = some a := by
  cases e with
  | none => exact ha
  | some e => exact Expr.one_results_mono h ha

theorem Stmt.execList_mono
    {n n' : Nat} {body : List Stmt} {a : Answer W Completion} (h : n ≤ n')
    (ha : Stmt.execList rt (rt.engine n) env body s = some a) :
    Stmt.execList rt (rt.engine n') env body s = some a :=
  (Stmt.execList_steps (fun _ _ _ _ _ _ _ => trivial)
    (fun _ _ => ⟨trivial, rfl⟩) h ha).1

/-- Only the names that statements mention matter to them. -/
theorem Stmt.execList_congr_env
    {n : Nat} {body : List Stmt} {a : Answer W Completion}
    (henv : ∀ x ∈ Stmt.namesList body, env' x = env x)
    (h : Stmt.execList rt (rt.engine n) env body s = some a) :
    Stmt.execList rt (rt.engine n) env' body s = some a :=
  (Stmt.execList_steps (fun _ _ _ _ _ _ _ => trivial)
    (fun x hx => ⟨trivial, henv x hx⟩) (Nat.le_refl n) h).1

end Steps

/-- Statements have at most one answer. -/
theorem Runtime.Executes.unique
    {body : List Stmt} {s : State W} {a a' : Answer W Completion}
    (h : rt.Executes env body s a) (h' : rt.Executes env body s a') : a = a' := by
  obtain ⟨n, hn⟩ := h
  obtain ⟨n', hn'⟩ := h'
  have hl := Stmt.execList_mono (Nat.le_max_left n n') hn
  have hr := Stmt.execList_mono (Nat.le_max_right n n') hn'
  exact Option.some.inj (hl.symm.trans hr)

theorem Runtime.Executes.iff_eq
    {body : List Stmt} {s : State W} {a : Answer W Completion}
    (h : rt.Executes env body s a) (a' : Answer W Completion) :
    rt.Executes env body s a' ↔ a' = a :=
  ⟨fun h' => h'.unique h, fun heq => heq ▸ h⟩

end Bracket
