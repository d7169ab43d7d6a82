import Bracket.Proofs.Execution.Frame

/-!
# Code among other variables

Code that mentions no name of a set runs in a state that holds further variables
with such names as it runs without them.  Its functions may still use names of the
set for variables of their own; these come to stand behind the further variables,
and nothing else changes.

For this the functions must have captured only variables that exist, which is so in
every state that code comes to (`Stmt.execList_closed`).
-/

namespace Bracket

variable {W : Type} {rt : Runtime W} {env env' : Env} {Q : String → Prop}

/-! ## Changes to some names -/

/-- The environments differ at most in names of `Q`. -/
def Env.SameOff (Q : String → Prop) (env env' : Env) : Prop :=
  ∀ x, ¬Q x → env' x = env x

namespace Env.SameOff

variable {Q' : String → Prop} {env'' : Env}

theorem refl (Q : String → Prop) (env : Env) : env.SameOff Q env := fun _ _ => rfl

theorem trans (h : env.SameOff Q env') (h' : env'.SameOff Q env'') : env.SameOff Q env'' :=
  fun x hx => (h' x hx).trans (h x hx)

theorem mono (h : env.SameOff Q env') (hQ : ∀ x, Q x → Q' x) : env.SameOff Q' env' :=
  fun x hx => h x fun hq => hx (hQ x hq)

theorem set {x : String} (hx : Q x) (i : Nat) : env.SameOff Q (env.set x i) :=
  fun _ hy => Env.set_of_ne env i fun hyx => hy (hyx ▸ hx)

theorem extend {ds : Declared} (h : ∀ d ∈ ds, Q d.1) : env.SameOff Q (env.extend ds) :=
  fun _ hy => Env.extend_of_forall_ne env fun d hd hdy => hy (hdy ▸ h d hd)

end Env.SameOff

/-- The second state has further variables with names of `Q`. -/
structure State.Adds (Q : String → Prop) (s s' : State W) : Prop where
  world : s'.world = s.world
  kept : ∀ x, s.vars x <+: s'.vars x
  others : ∀ x, ¬Q x → s'.vars x = s.vars x

namespace State.Adds

variable {Q' : String → Prop} {s s' s'' : State W}

theorem refl (Q : String → Prop) (s : State W) : s.Adds Q s :=
  ⟨rfl, fun _ => List.prefix_refl _, fun _ _ => rfl⟩

theorem trans (h : s.Adds Q s') (h' : s'.Adds Q s'') : s.Adds Q s'' :=
  ⟨h'.world.trans h.world, fun x => (h.kept x).trans (h'.kept x),
    fun x hx => (h'.others x hx).trans (h.others x hx)⟩

theorem mono (h : s.Adds Q s') (hQ : ∀ x, Q x → Q' x) : s.Adds Q' s' :=
  ⟨h.world, h.kept, fun x hx => h.others x fun hq => hx (hQ x hq)⟩

theorem declare {x : String} (hx : Q x) (m : Bool) (v : Value) : s.Adds Q (s.declare m x v) where
  world := rfl
  kept y := by
    by_cases hy : y = x
    · subst hy
      rw [declare_vars_self]
      exact List.prefix_append _ _
    · exact (declare_vars_of_ne s m v hy).symm ▸ List.prefix_refl _
  others _ hy := State.declare_vars_of_ne s m v fun hyx => hy (hyx ▸ hx)

theorem vars_of_lt
    (h : s.Adds Q s') {x : String} {i : Nat} (hi : i < (s.vars x).length) :
    (s'.vars x)[i]? = (s.vars x)[i]? := by
  obtain ⟨vs, hvs⟩ := h.kept x
  rw [← hvs, List.getElem?_append_left hi]

theorem grows (h : s.Adds Q s') : s.Grows s' := fun x => (h.kept x).length_le

end State.Adds

/-- The variables that state `s₀` has are the same in both states. -/
def State.SameUpTo (s₀ s s' : State W) : Prop :=
  ∀ x i, i < (s₀.vars x).length → (s'.vars x)[i]? = (s.vars x)[i]?

namespace State.SameUpTo

variable {s₀ s₁ s s' s'' : State W}

theorem refl (s₀ s : State W) : s₀.SameUpTo s s := fun _ _ _ => rfl

theorem trans (h : s₀.SameUpTo s s') (h' : s₀.SameUpTo s' s'') : s₀.SameUpTo s s'' :=
  fun x i hi => (h' x i hi).trans (h x i hi)

theorem mono (h : s₁.SameUpTo s s') (hgrows : s₀.Grows s₁) : s₀.SameUpTo s s' :=
  fun x i hi => h x i (Nat.lt_of_lt_of_le hi (hgrows x))

theorem of_adds (hgrows : s₀.Grows s) (h : s.Adds Q s') : s₀.SameUpTo s s' :=
  fun x _ hi => h.vars_of_lt (Nat.lt_of_lt_of_le hi (hgrows x))

theorem assign
    {x : String} {i : Nat} (hi : (s₀.vars x).length ≤ i) (v : Value) :
    s₀.SameUpTo s (s.assign x i v) := by
  intro y j hj
  refine State.assign_vars_of_ne_index s v fun hy hji => ?_
  subst hy hji
  omega

end State.SameUpTo

/-! ## Where variables stand -/

/-- Variables stand elsewhere only if their names are in `Q`. -/
def Placement.MovesOnly (Q : String → Prop) (place : Placement) : Prop :=
  ∀ x, ¬Q x → ∀ i, place x i = i

/-- The variables of the first state stand among those of the second, which has
further ones with names of `Q` only.  Functions of the first state have captured
variables that exist. -/
structure State.Placed (Q : String → Prop) (place : Placement) (s S : State W) : Prop where
  world : S.world = s.world
  closed : s.Closed Q
  same : place.MovesOnly Q
  length : ∀ x, ¬Q x → (S.vars x).length = (s.vars x).length
  vars : ∀ x i, i < (s.vars x).length →
    (S.vars x)[place x i]? = (s.vars x)[i]?.map (Variable.move place)
  distinct : ∀ x i j, i < (s.vars x).length → j < (s.vars x).length →
    place x i = place x j → i = j

/-- Variable `j` of the name is one of the second state's own. -/
def State.Private (place : Placement) (s S : State W) (x : String) (j : Nat) : Prop :=
  j < (S.vars x).length ∧ ∀ i, i < (s.vars x).length → place x i ≠ j

/-- A run from the second state leaves its own variables alone. -/
def State.Spares (place : Placement) (s S S' : State W) : Prop :=
  ∀ x j, s.Private place S x j → (S'.vars x)[j]? = (S.vars x)[j]?

/-- Runs from the two states leave the second state's own variables alone and do not
make them their own. -/
def State.Keeps (place : Placement) (s S : State W) (place' : Placement) (s' S' : State W) :
    Prop :=
  ∀ x j, s.Private place S x j →
    s'.Private place' S' x j ∧ (S'.vars x)[j]? = (S.vars x)[j]?

namespace State.Keeps

variable {place place' place'' : Placement} {s s' s'' S S' S'' : State W}

theorem trans (h : s.Keeps place S place' s' S') (h' : s'.Keeps place' S' place'' s'' S'') :
    s.Keeps place S place'' s'' S'' := by
  intro x j hj
  obtain ⟨hj', hkept⟩ := h x j hj
  obtain ⟨hj'', hkept'⟩ := h' x j hj'
  exact ⟨hj'', hkept'.trans hkept⟩

theorem spares (h : s.Keeps place S place' s' S') : s.Spares place S S' :=
  fun x j hj => (h x j hj).2

theorem trans_spares (h : s.Keeps place S place' s' S') (h' : s'.Spares place' S' S'') :
    s.Spares place S S'' := by
  intro x j hj
  obtain ⟨hj', hkept⟩ := h x j hj
  exact (h' x j hj').trans hkept

theorem of_adds (h : S.Adds Q S') : s.Keeps place S place s S' :=
  fun x _ hj => ⟨⟨Nat.lt_of_lt_of_le hj.1 (h.grows x), hj.2⟩, h.vars_of_lt hj.1⟩

end State.Keeps

/-- Later changes to newer variables do not matter. -/
theorem State.Spares.trans_sameUpTo
    {place : Placement} {s S S' S'' : State W} (h : s.Spares place S S')
    (h' : S.SameUpTo S' S'') : s.Spares place S S'' :=
  fun x j hj => (h' x j hj.1).trans (h x j hj)

/-- The placement under which further variables of the first state come to stand
behind all variables of the second. -/
def Placement.behind (place : Placement) (s S : State W) : Placement := fun x i =>
  if i < (s.vars x).length then place x i else (S.vars x).length + (i - (s.vars x).length)

namespace State.Placed

variable {place : Placement} {s s' S S' : State W} {x : String} {i : Nat}

theorem refl (h : s.Closed Q) : s.Placed Q (fun _ i => i) s where
  world := rfl
  closed := h
  same _ _ _ := rfl
  length _ _ := rfl
  vars := (State.Tracks.refl h).vars
  distinct _ _ _ _ _ h := h

theorem place_lt (h : s.Placed Q place S) (hi : i < (s.vars x).length) :
    place x i < (S.vars x).length := by
  have hget := h.vars x i hi
  rw [List.getElem?_eq_getElem hi, Option.map_some] at hget
  exact (List.getElem?_eq_some_iff.mp hget).1

theorem adds (h : s.Placed Q place S) (hS : S.Adds Q S') : s.Placed Q place S' where
  world := hS.world.trans h.world
  closed := h.closed
  same := h.same
  length x hx := by rw [hS.others x hx, h.length x hx]
  vars x i hi := (hS.vars_of_lt (h.place_lt hi)).trans (h.vars x i hi)
  distinct := h.distinct

/-- A new variable of the second state is one of its own. -/
theorem private_of_length_le
    (h : s.Placed Q place S) {j : Nat} (hj : (S.vars x).length ≤ j) (hj' : j < (S'.vars x).length) :
    s.Private place S' x j :=
  ⟨hj', fun _ hi heq => absurd (h.place_lt hi) (by omega)⟩

theorem behind_of_lt (hi : i < (s.vars x).length) : place.behind s S x i = place x i :=
  if_pos hi

theorem behind_of_le (hi : (s.vars x).length ≤ i) :
    place.behind s S x i = (S.vars x).length + (i - (s.vars x).length) :=
  if_neg (Nat.not_lt_of_le hi)

theorem behind_same (h : s.Placed Q place S) (hx : ¬Q x) : place.behind s S x i = i := by
  by_cases hi : i < (s.vars x).length
  · rw [behind_of_lt hi, h.same x hx]
  · rw [behind_of_le (Nat.le_of_not_lt hi), h.length x hx]
    omega

/-- Distinct variables come to stand at distinct places. -/
theorem behind_distinct
    (h : s.Placed Q place S) (i j : Nat) (heq : place.behind s S x i = place.behind s S x j) :
    i = j := by
  by_cases hi : i < (s.vars x).length <;> by_cases hj : j < (s.vars x).length
  · rw [behind_of_lt hi, behind_of_lt hj] at heq
    exact h.distinct x i j hi hj heq
  · rw [behind_of_lt hi, behind_of_le (Nat.le_of_not_lt hj)] at heq
    have hlt := h.place_lt hi
    omega
  · rw [behind_of_le (Nat.le_of_not_lt hi), behind_of_lt hj] at heq
    have hlt := h.place_lt hj
    omega
  · rw [behind_of_le (Nat.le_of_not_lt hi), behind_of_le (Nat.le_of_not_lt hj)] at heq
    omega

theorem tracks
    (h : s.Placed Q place S) (hgrows : s.Grows s') :
    s.Tracks (fun x o => Q x → ∀ i ∈ o, i < (s'.vars x).length) (place.behind s S) S where
  world := h.world
  admitted := h.closed.mono fun x o ho hx i hi => Nat.lt_of_lt_of_le (ho hx i hi) (hgrows x)
  vars x i hi := by
    rw [behind_of_lt hi, h.vars x i hi]
    cases hv : (s.vars x)[i]? with
    | none => rfl
    | some v =>
        have hvalue : v.value.move (place.behind s S) = v.value.move place := by
          refine (h.closed x v (List.mem_of_getElem? hv)).move_congr fun y j hj => ?_
          by_cases hy : Q y
          · exact behind_of_lt (hj hy j rfl)
          · rw [h.behind_same hy, h.same y hy]
        rw [Option.map_some, Option.map_some, Variable.move, Variable.move, hvalue]
  distinct _ := h.behind_distinct
  fresh _ _ := behind_of_le

theorem of_tracks
    (h : s.Placed Q place S)
    (ht : s'.Tracks (fun x o => Q x → ∀ i ∈ o, i < (s'.vars x).length) (place.behind s S) S') :
    s'.Placed Q (place.behind s S) S' where
  world := ht.world
  closed := ht.admitted
  same _ hx _ := h.behind_same hx
  length x hx := by
    rw [← ht.place_length]
    exact h.behind_same hx
  vars := ht.vars
  distinct x i j _ _ := ht.distinct x i j

theorem keeps_of_tracks
    {A : String → Option Nat → Prop} (ht : s'.Tracks A (place.behind s S) S')
    (hothers : ∀ x j, (∀ i, place.behind s S x i ≠ j) → (S'.vars x)[j]? = (S.vars x)[j]?) :
    s.Keeps place S (place.behind s S) s' S' := by
  intro x j hj
  have hne : ∀ i, place.behind s S x i ≠ j := by
    intro i
    by_cases hi : i < (s.vars x).length
    · rw [behind_of_lt hi]
      exact hj.2 i hi
    · have hlt := hj.1
      rw [behind_of_le (Nat.le_of_not_lt hi)]
      omega
  exact ⟨⟨ht.lt_of_forall_ne hne, fun i _ => hne i⟩, hothers x j hne⟩

end State.Placed

/-! ## Runs among other variables -/

section Among

variable {place : Placement} {s s' S : State W} {es : List Event}

/-- The simulation for a run to state `s'` from a state among other variables. -/
abbrev Simulation.among
    (Q : String → Prop) (place : Placement) (s S s' : State W) : Simulation W :=
  placed W (fun x o => Q x → ∀ i ∈ o, i < (s'.vars x).length) (place.behind s S)
    (fun x => (s'.vars x).length) fun _ _ _ _ hi _ _ hj => (Option.mem_some.mp hj) ▸ hi

theorem Simulation.agree_among
    {names : List String} (hplaced : s.Placed Q place S) (hnames : ∀ x ∈ names, ¬Q x)
    (henv : env.SameOff Q env') : (among Q place s S s').Agree names env env' := by
  intro x hx
  refine ⟨fun hq => absurd hq (hnames x hx), (henv x (hnames x hx)).trans ?_⟩
  have hsame : place.behind s S x = id := funext fun i => hplaced.behind_same (hnames x hx)
  change env x = (env x).map (place.behind s S x)
  rw [hsame, Option.map_id_fun, id]

theorem Simulation.answer_of_among
    {α : Type} {R : α → α → Prop} {m m' : Run W α} {r : Except Value α}
    (hplaced : s.Placed Q place S) (hrel : (among Q place s S s').Rel R m m')
    (h : m s = some ⟨r, s', es⟩) :
    ∃ r' S', m' S = some ⟨r', S', es⟩ ∧ s'.Placed Q (place.behind s S) S' ∧
      s.Keeps place S (place.behind s S) s' S' ∧
      Except.Related (among Q place s S s').Alike R r r' := by
  obtain ⟨⟨r', S', es'⟩, h', rfl, hstate, hothers, hresult⟩ :=
    hrel s S _ (hplaced.tracks (m.grows h)) h fun _ => Nat.le_refl _
  exact ⟨r', S', h', hplaced.of_tracks hstate, State.Placed.keeps_of_tracks hstate hothers, hresult⟩

/-- An expression without names of `Q` runs alike among other variables with such
names, and leaves them alone. -/
theorem Expr.one_results_placed
    {e : Expr} {v : Value} {n : Nat} (hnames : ∀ x ∈ e.names, ¬Q x)
    (henv : env.SameOff Q env') (hplaced : s.Placed Q place S)
    (h : (e.results rt (rt.engine n) env).one s = some ⟨.ok v, s', es⟩) :
    ∃ place' S',
      (e.results rt (rt.engine n) env').one S = some ⟨.ok (v.move place'), S', es⟩ ∧
      s'.Placed Q place' S' ∧ s.Keeps place S place' s' S' := by
  let T : Simulation W := .among Q place s S s'
  have hrel : T.Rel T.AllAlike
      (e.results rt (rt.engine n) env) (e.results rt (rt.engine n) env') :=
    Expr.results_related (Simulation.engine_related n) e
      (Simulation.agree_among hplaced hnames henv)
  obtain ⟨r', S', h', hplaced', hkeeps, hresult⟩ :=
    Simulation.answer_of_among hplaced (Simulation.one hrel) h
  cases hresult with
  | ok hv =>
      obtain ⟨rfl, -⟩ := hv
      exact ⟨_, S', h', hplaced', hkeeps⟩

/-- Statements without names of `Q` run alike among other variables with such names,
and leave them alone. -/
theorem Stmt.execList_placed
    {body : List Stmt} {r : Ending} {n : Nat} (hnames : ∀ x ∈ Stmt.namesList body, ¬Q x)
    (henv : env.SameOff Q env') (hplaced : s.Placed Q place S)
    (h : Stmt.execList rt (rt.engine n) env body s = some ⟨r, s', es⟩) :
    ∃ place' S',
      Stmt.execList rt (rt.engine n) env' body S = some ⟨r.move place', S', es⟩ ∧
      s'.Placed Q place' S' ∧ s.Keeps place S place' s' S' := by
  let T : Simulation W := .among Q place s S s'
  have hrel : T.Rel T.Ends
      (Stmt.execList rt (rt.engine n) env body) (Stmt.execList rt (rt.engine n) env' body) :=
    Stmt.execList_related (Simulation.engine_related n) env env' body
      (Simulation.agree_among hplaced hnames henv)
  obtain ⟨r', S', h', hplaced', hkeeps, hresult⟩ :=
    Simulation.answer_of_among hplaced hrel h
  refine ⟨_, S', ?_, hplaced', hkeeps⟩
  cases hresult with
  | ok hc => rw [h', hc.1]; rfl
  | error hv => rw [h', hv.1]; rfl

end Among

/-- Code that knows of variables that exist comes to a state in which functions have
captured variables that exist. -/
theorem Stmt.execList_closed
    {body : List Stmt} {s s' : State W} {r : Ending} {es : List Event} {n : Nat}
    (hs : s.Closed Q)
    (henv : ∀ x ∈ Stmt.namesList body, Q x → ∀ i ∈ env x, i < (s.vars x).length)
    (h : Stmt.execList rt (rt.engine n) env body s = some ⟨r, s', es⟩) : s'.Closed Q := by
  let A (x : String) (o : Option Nat) : Prop := Q x → ∀ i ∈ o, i < (s'.vars x).length
  let T : Simulation W := .placed W A (fun _ i => i) (fun x => (s'.vars x).length)
    fun _ _ _ _ hi _ _ hj => (Option.mem_some.mp hj) ▸ hi
  have hgrows : s.Grows s' := (Stmt.execList rt (rt.engine n) env body).grows h
  have hA : ∀ x o, (Q x → ∀ i ∈ o, i < (s.vars x).length) → A x o :=
    fun x o ho hq i hi => Nat.lt_of_lt_of_le (ho hq i hi) (hgrows x)
  have hagree : T.Agree (Stmt.namesList body) env env :=
    fun x hx => ⟨hA x _ (henv x hx), Option.map_id'.symm⟩
  have hrel : T.Rel T.Ends
      (Stmt.execList rt (rt.engine n) env body) (Stmt.execList rt (rt.engine n) env body) :=
    Stmt.execList_related (Simulation.engine_related n) env env body hagree
  obtain ⟨a', -, hanswer⟩ := hrel s s _ (.refl (hs.mono hA)) h fun _ => Nat.le_refl _
  exact hanswer.state.admitted

end Bracket
