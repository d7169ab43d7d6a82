import Bracket.Outcome.Trace
import Bracket.Proofs.Tree.Names

/-!
# Values and variables of running code

A variable is known by its name and by the number of variables of the same name
that were declared before it, so that what one piece of code declares does not
renumber the variables of another piece with other names.  An environment says
which variable a name means at a place of the code.  Lists and objects that the
code writes down are plain values; whatever can be changed from outside belongs
to the world of the surroundings and is only referred to.

A function value keeps the environment of the names that the function mentions.
The numbers in it depend on what else was declared: the same value of another run
has the numbers of that run (`Value.move`), and nobody outside sees them
(`Value.seen`).
-/

namespace Bracket

/-- Functions that a language of protected calls comes with. -/
inductive Primitive where
  /-- Call a function and turn an error into a value. -/
  | protectedCall
  /-- The library of tables. -/
  | tables
  /-- Return the elements of a table. -/
  | unpack
  deriving DecidableEq, Repr

/-- Which variable a name means. -/
def Env := String → Option Nat

/-- The variables that a statement declares, in order. -/
abbrev Declared := List (String × Nat)

/-- Where the variables of a run stand in another one: the number that a variable
has there. -/
abbrev Placement := String → Nat → Nat

namespace Env

/-- The environment after declaring variable `i` of a name. -/
def set (env : Env) (x : String) (i : Nat) : Env :=
  fun y => if y = x then some i else env y

/-- The environment after declarations. -/
def extend (env : Env) : Declared → Env
  | [] => env
  | (x, i) :: ds => (env.set x i).extend ds

/-- The environment of the names in a list. -/
def restrict (env : Env) (names : List String) : Env :=
  fun x => if x ∈ names then env x else none

/-- The environment where the variables with names in a list stand elsewhere. -/
def moved (env : Env) (names : List String) (place : Placement) : Env :=
  fun x => if x ∈ names then (env x).map (place x) else env x

@[simp] theorem set_self (env : Env) (x : String) (i : Nat) : env.set x i x = some i := by
  simp [set]

theorem set_of_ne
    (env : Env) {x y : String} (i : Nat) (h : y ≠ x) :
    env.set x i y = env y := by
  simp [set, h]

/-- Declarations of other names do not matter to a name. -/
theorem extend_of_forall_ne
    (env : Env) {x : String} {ds : Declared} (h : ∀ d ∈ ds, d.1 ≠ x) :
    env.extend ds x = env x := by
  induction ds generalizing env with
  | nil => rfl
  | cons d ds ih =>
      have hd : x ≠ d.1 := (h d List.mem_cons_self).symm
      rw [extend, ih _ fun e he => h e (List.mem_cons_of_mem _ he), set_of_ne env d.2 hd]

theorem restrict_of_mem
    (env : Env) {x : String} {names : List String} (h : x ∈ names) :
    env.restrict names x = env x := by
  simp [restrict, h]

theorem moved_of_mem
    (env : Env) {x : String} {names : List String} (place : Placement) (h : x ∈ names) :
    env.moved names place x = (env x).map (place x) := by
  simp [moved, h]

/-- Moving depends only on where the captured variables come to stand. -/
theorem moved_congr
    {env : Env} {names : List String} {place place' : Placement}
    (h : ∀ x ∈ names, ∀ i, env x = some i → place' x i = place x i) :
    env.moved names place' = env.moved names place := by
  funext x
  by_cases hx : x ∈ names
  · rw [moved_of_mem env place hx, moved_of_mem env place' hx]
    cases hi : env x with
    | none => rfl
    | some i => rw [Option.map_some, Option.map_some, h x hx i hi]
  · simp [moved, hx]

theorem moved_id (env : Env) (names : List String) : env.moved names (fun _ i => i) = env := by
  funext x
  simp [moved]

end Env

/-- A value of running code. -/
inductive Value where
  | null
  | bool (b : Bool)
  | number (d : Double)
  | string (s : String)
  /-- The value of an error. -/
  | fault (e : Fault)
  /-- The resource at a position. -/
  | manager (i : Nat)
  /-- An object of the surroundings. -/
  | foreign (ref : Nat)
  | sequence (elements : List Value)
  | record (fields : List (String × Value))
  | closure (f : Func) (captured : Env)
  | primitive (p : Primitive)

namespace Value

mutual

/-- The functions that can be reached from a value, with what they captured. -/
def closures : Value → List (Func × Env)
  | .sequence vs => closuresList vs
  | .record fs => closuresFields fs
  | .closure f captured => [(f, captured)]
  | _ => []

def closuresList : List Value → List (Func × Env)
  | [] => []
  | v :: vs => v.closures ++ closuresList vs

def closuresFields : List (String × Value) → List (Func × Env)
  | [] => []
  | (_, v) :: fs => v.closures ++ closuresFields fs

end

mutual

/-- The value with another environment in each of its functions. -/
def recapture (g : Func → Env → Env) : Value → Value
  | .sequence vs => .sequence (recaptureList g vs)
  | .record fs => .record (recaptureFields g fs)
  | .closure f captured => .closure f (g f captured)
  | v => v

def recaptureList (g : Func → Env → Env) : List Value → List Value
  | [] => []
  | v :: vs => v.recapture g :: recaptureList g vs

def recaptureFields (g : Func → Env → Env) : List (String × Value) → List (String × Value)
  | [] => []
  | (k, v) :: fs => (k, v.recapture g) :: recaptureFields g fs

end

/-- The value in a run where variables stand elsewhere. -/
def move (place : Placement) : Value → Value :=
  recapture fun f captured => captured.moved f.names place

/-- The value as the surroundings see it: the code of a function, but not which
variables it captured. -/
def seen : Value → Value :=
  recapture fun _ _ _ => none

theorem mem_closuresList_iff
    {q : Func × Env} {vs : List Value} :
    q ∈ closuresList vs ↔ ∃ v ∈ vs, q ∈ v.closures := by
  induction vs with
  | nil => simp [closuresList]
  | cons v vs ih => simp [closuresList, ih]

theorem mem_closuresFields_iff
    {q : Func × Env} {fs : List (String × Value)} :
    q ∈ closuresFields fs ↔ ∃ p ∈ fs, q ∈ p.2.closures := by
  induction fs with
  | nil => simp [closuresFields]
  | cons p fs ih => simp [closuresFields, ih]

theorem recaptureList_eq_map
    (g : Func → Env → Env) (vs : List Value) : recaptureList g vs = vs.map (recapture g) := by
  induction vs with
  | nil => rfl
  | cons v vs ih => rw [recaptureList, ih, List.map_cons]

theorem recaptureFields_eq_map
    (g : Func → Env → Env) (fs : List (String × Value)) :
    recaptureFields g fs = fs.map fun p => (p.1, p.2.recapture g) := by
  induction fs with
  | nil => rfl
  | cons p fs ih => rw [recaptureFields, ih, List.map_cons]

mutual

/-- Only the environments of reachable functions matter. -/
theorem recapture_congr
    {g g' : Func → Env → Env} :
    (v : Value) → (∀ q ∈ v.closures, g' q.1 q.2 = g q.1 q.2) → v.recapture g' = v.recapture g
  | .sequence vs, h => by
      rw [closures] at h
      rw [recapture, recapture, recaptureList_congr vs h]
  | .record fs, h => by
      rw [closures] at h
      rw [recapture, recapture, recaptureFields_congr fs h]
  | .closure f captured, h => by
      rw [recapture, recapture, h (f, captured) (by simp [closures])]
  | .null, _ | .bool _, _ | .number _, _ | .string _, _ | .fault _, _ | .manager _, _
  | .foreign _, _ | .primitive _, _ => rfl

theorem recaptureList_congr
    {g g' : Func → Env → Env} :
    (vs : List Value) → (∀ q ∈ closuresList vs, g' q.1 q.2 = g q.1 q.2) →
      recaptureList g' vs = recaptureList g vs
  | [], _ => rfl
  | v :: vs, h => by
      rw [closuresList, List.forall_mem_append] at h
      rw [recaptureList, recaptureList, recapture_congr v h.1, recaptureList_congr vs h.2]

theorem recaptureFields_congr
    {g g' : Func → Env → Env} :
    (fs : List (String × Value)) → (∀ q ∈ closuresFields fs, g' q.1 q.2 = g q.1 q.2) →
      recaptureFields g' fs = recaptureFields g fs
  | [], _ => rfl
  | (k, v) :: fs, h => by
      rw [closuresFields, List.forall_mem_append] at h
      rw [recaptureFields, recaptureFields, recapture_congr v h.1, recaptureFields_congr fs h.2]

end

mutual

theorem recapture_self : (v : Value) → v.recapture (fun _ captured => captured) = v
  | .sequence vs => by rw [recapture, recaptureList_self vs]
  | .record fs => by rw [recapture, recaptureFields_self fs]
  | .closure f captured => by rw [recapture]
  | .null | .bool _ | .number _ | .string _ | .fault _ | .manager _ | .foreign _
  | .primitive _ => rfl

theorem recaptureList_self :
    (vs : List Value) → recaptureList (fun _ captured => captured) vs = vs
  | [] => rfl
  | v :: vs => by rw [recaptureList, recapture_self v, recaptureList_self vs]

theorem recaptureFields_self :
    (fs : List (String × Value)) → recaptureFields (fun _ captured => captured) fs = fs
  | [] => rfl
  | (k, v) :: fs => by rw [recaptureFields, recapture_self v, recaptureFields_self fs]

end

mutual

theorem recapture_recapture
    (g h : Func → Env → Env) :
    (v : Value) → (v.recapture g).recapture h = v.recapture fun f captured => h f (g f captured)
  | .sequence vs => by simp only [recapture, recaptureList_recaptureList g h vs]
  | .record fs => by simp only [recapture, recaptureFields_recaptureFields g h fs]
  | .closure f captured => by simp only [recapture]
  | .null | .bool _ | .number _ | .string _ | .fault _ | .manager _ | .foreign _
  | .primitive _ => rfl

theorem recaptureList_recaptureList
    (g h : Func → Env → Env) :
    (vs : List Value) → recaptureList h (recaptureList g vs) =
      recaptureList (fun f captured => h f (g f captured)) vs
  | [] => rfl
  | v :: vs => by
      simp only [recaptureList, recapture_recapture g h v, recaptureList_recaptureList g h vs]

theorem recaptureFields_recaptureFields
    (g h : Func → Env → Env) :
    (fs : List (String × Value)) → recaptureFields h (recaptureFields g fs) =
      recaptureFields (fun f captured => h f (g f captured)) fs
  | [] => rfl
  | (k, v) :: fs => by
      simp only [recaptureFields, recapture_recapture g h v,
        recaptureFields_recaptureFields g h fs]

end

@[simp] theorem seen_move (place : Placement) (v : Value) : (v.move place).seen = v.seen :=
  recapture_recapture _ _ v

/-- Values without functions are the same in every run. -/
theorem recapture_of_closures_eq_nil
    {v : Value} (g : Func → Env → Env) (h : v.closures = []) : v.recapture g = v := by
  rw [recapture_congr (g := fun _ captured => captured) v (by simp [h]), recapture_self]

theorem move_of_closures_eq_nil
    {v : Value} (place : Placement) (h : v.closures = []) : v.move place = v :=
  recapture_of_closures_eq_nil _ h

@[simp] theorem move_sequence (place : Placement) (vs : List Value) :
    (sequence vs).move place = .sequence (vs.map (move place)) := by
  rw [move, recapture, recaptureList_eq_map]

@[simp] theorem move_record (place : Placement) (fs : List (String × Value)) :
    (record fs).move place = .record (fs.map fun p => (p.1, p.2.move place)) := by
  rw [move, recapture, recaptureFields_eq_map]

@[simp] theorem move_closure (place : Placement) (f : Func) (captured : Env) :
    (closure f captured).move place = .closure f (captured.moved f.names place) := by
  rw [move, recapture]

theorem move_id (v : Value) : v.move (fun _ i => i) = v := by
  refine (recapture_congr (g := fun _ captured => captured) v ?_).trans (recapture_self v)
  exact fun q _ => q.2.moved_id q.1.names

/-- The value of a literal. -/
def ofLiteral : Literal → Value
  | .null => .null
  | .bool b => .bool b
  | .number d => .number d
  | .string s => .string s

def isNull : Value → Bool
  | .null => true
  | _ => false

/-- The error that a release sees in its argument. -/
def asFault : Value → Option Fault
  | .fault e => some e
  | _ => none

@[simp] theorem isNull_move (place : Placement) (v : Value) : (v.move place).isNull = v.isNull := by
  cases v <;> rfl

@[simp] theorem asFault_move (place : Placement) (v : Value) :
    (v.move place).asFault = v.asFault := by
  cases v <;> rfl

/-- The first of several results, where one value is wanted. -/
def first (vs : List Value) : Value := vs.headD .null

@[simp] theorem first_cons (v : Value) (vs : List Value) : first (v :: vs) = v := rfl

@[simp] theorem first_map_move (place : Placement) (vs : List Value) :
    first (vs.map (move place)) = (first vs).move place := by
  cases vs <;> rfl

/-! ## What functions may capture -/

/-- Every function that can be reached from the value may mean what it does by each
of its names: `A x i` says so for variable `i` of name `x`, and `A x none` for a
name without one. -/
def Admitted (A : String → Option Nat → Prop) (v : Value) : Prop :=
  ∀ q ∈ v.closures, ∀ x ∈ q.1.names, A x (q.2 x)

variable {A : String → Option Nat → Prop}

theorem Admitted.mono
    {A' : String → Option Nat → Prop} {v : Value} (h : v.Admitted A)
    (hA : ∀ x o, A x o → A' x o) : v.Admitted A' :=
  fun q hq x hx => hA x _ (h q hq x hx)

theorem admitted_of_closures_eq_nil {v : Value} (h : v.closures = []) : v.Admitted A := by
  intro q hq
  simp [h] at hq

theorem admitted_first {vs : List Value} (h : ∀ v ∈ vs, v.Admitted A) : (first vs).Admitted A := by
  cases vs with
  | nil => exact admitted_of_closures_eq_nil rfl
  | cons v vs => exact h v List.mem_cons_self

theorem admitted_sequence
    {vs : List Value} : (sequence vs).Admitted A ↔ ∀ v ∈ vs, v.Admitted A := by
  simp only [Admitted, closures, mem_closuresList_iff]
  constructor
  · intro h v hv q hq
    exact h q ⟨v, hv, hq⟩
  · rintro h q ⟨v, hv, hq⟩
    exact h v hv q hq

theorem admitted_record
    {fs : List (String × Value)} : (record fs).Admitted A ↔ ∀ p ∈ fs, p.2.Admitted A := by
  simp only [Admitted, closures, mem_closuresFields_iff]
  constructor
  · intro h p hp q hq
    exact h q ⟨p, hp, hq⟩
  · rintro h q ⟨p, hp, hq⟩
    exact h p hp q hq

theorem admitted_closure
    {f : Func} {captured : Env} :
    (closure f captured).Admitted A ↔ ∀ x ∈ f.names, A x (captured x) := by
  simp [Admitted, closures]

/-- Where the captured variables stand the same, the value is the same. -/
theorem Admitted.move_congr
    {v : Value} {place place' : Placement} (h : v.Admitted A)
    (hA : ∀ x i, A x (some i) → place' x i = place x i) : v.move place' = v.move place := by
  refine recapture_congr v fun q hq => Env.moved_congr fun x hx i hi => hA x i ?_
  rw [← hi]
  exact h q hq x hx

end Value

/-- A value that no function of the code can be reached from, as the
surroundings give it. -/
abbrev Datum := {v : Value // v.closures = []}

/-- How statements end, unless they throw. -/
inductive Completion where
  | normal
  | returned (results : List Value)
  | broke
  | continued

namespace Completion

/-- How a loop goes on after its body: it ends with the given completion, or it
takes the next turn. -/
def afterTurn : Completion → Option Completion
  | .normal => none
  | .continued => none
  | .broke => some .normal
  | .returned vs => some (.returned vs)

/-- The results of a function whose body ends with the completion. -/
def results : Completion → List Value
  | .returned vs => vs
  | _ => []

/-- The completion in a run where variables stand elsewhere. -/
def move (place : Placement) : Completion → Completion
  | .returned vs => .returned (vs.map (Value.move place))
  | c => c

end Completion

/-- How code ends: with a completion, or by throwing a value. -/
abbrev Ending := Except Value Completion

/-- The ending in a run where variables stand elsewhere. -/
def Ending.move (place : Placement) : Ending → Ending
  | .ok c => .ok (c.move place)
  | .error v => .error (v.move place)

/-- The values that an ending carries: the results of a return, or the thrown
value. -/
def Ending.values : Ending → List Value
  | .ok c => c.results
  | .error v => [v]

theorem Completion.move_id (c : Completion) : c.move (fun _ i => i) = c := by
  cases c with
  | returned vs =>
      have hvs : vs.map (Value.move fun _ i => i) = vs :=
        (List.map_congr_left fun v _ => v.move_id).trans (List.map_id vs)
      rw [move, hvs]
  | normal | broke | continued => rfl

/-- A variable: its value, and whether it may be assigned. -/
structure Variable where
  value : Value
  mutable : Bool

/-- The error of assigning the variable: that of assigning a constant, if it is one
and the language has such an error. -/
def Variable.refusal (v : Variable) (denied : Option Datum) : Option Datum :=
  if v.mutable then none else denied

/-- The variable in a run where variables stand elsewhere. -/
def Variable.move (place : Placement) (v : Variable) : Variable :=
  { v with value := v.value.move place }

/-- The variables that were declared so far and the world of the surroundings. -/
structure State (W : Type) where
  /-- All variables of a name, the first declared first. -/
  vars : String → List Variable
  world : W

namespace State

variable {W : Type}

/-- The state after declaring a variable. -/
def declare (s : State W) (mutable : Bool) (x : String) (v : Value) : State W :=
  { s with vars := fun y => if y = x then s.vars x ++ [⟨v, mutable⟩] else s.vars y }

/-- The state after a variable has got another value. -/
def assign (s : State W) (x : String) (i : Nat) (v : Value) : State W :=
  { s with vars := fun y =>
      if y = x then (s.vars x).modify i fun old => { old with value := v } else s.vars y }

section

variable (s : State W) (m : Bool) {x y : String} (i j : Nat) (v : Value)

@[simp] theorem declare_vars_self : (s.declare m x v).vars x = s.vars x ++ [⟨v, m⟩] := by
  simp [declare]

theorem declare_vars_of_ne (h : y ≠ x) : (s.declare m x v).vars y = s.vars y := by
  simp [declare, h]

@[simp] theorem assign_vars_self :
    (s.assign x i v).vars x = (s.vars x).modify i fun old => { old with value := v } := by
  simp [assign]

theorem assign_vars_of_ne (h : y ≠ x) : (s.assign x i v).vars y = s.vars y := by
  simp [assign, h]

@[simp] theorem length_vars_assign :
    ((s.assign x i v).vars y).length = (s.vars y).length := by
  by_cases h : y = x
  · rw [h, assign_vars_self, List.length_modify]
  · rw [assign_vars_of_ne s i v h]

/-- A declaration keeps the variables that there are. -/
theorem declare_vars_of_lt
    {i : Nat} (h : i < (s.vars y).length) : ((s.declare m x v).vars y)[i]? = (s.vars y)[i]? := by
  by_cases hy : y = x
  · subst hy
    rw [declare_vars_self, List.getElem?_append_left h]
  · rw [declare_vars_of_ne s m v hy]

theorem assign_vars_of_ne_index
    {i j : Nat} (h : y = x → j ≠ i) : ((s.assign x i v).vars y)[j]? = (s.vars y)[j]? := by
  by_cases hy : y = x
  · subst hy
    rw [assign_vars_self, List.getElem?_modify_ne _ _ (h rfl).symm]
  · rw [assign_vars_of_ne s i v hy]

theorem assign_vars_index :
    ((s.assign x i v).vars x)[i]? = (s.vars x)[i]?.map fun old => { old with value := v } := by
  rw [assign_vars_self, List.getElem?_modify_eq]
  rfl

end

/-- Every function that a variable holds may mean what it does by its names. -/
def Admitted (A : String → Option Nat → Prop) (s : State W) : Prop :=
  ∀ x, ∀ v ∈ s.vars x, v.value.Admitted A

namespace Admitted

variable {A A' : String → Option Nat → Prop} {s : State W} {x : String} {v : Value}

theorem mono (h : s.Admitted A) (hA : ∀ x o, A x o → A' x o) : s.Admitted A' :=
  fun x v hv => (h x v hv).mono hA

theorem declare (h : s.Admitted A) (hv : v.Admitted A) (m : Bool) :
    (s.declare m x v).Admitted A := by
  intro y u hu
  by_cases hy : y = x
  · subst hy
    rw [declare_vars_self, List.mem_append, List.mem_singleton] at hu
    rcases hu with hu | rfl
    · exact h y u hu
    · exact hv
  · rw [declare_vars_of_ne s m v hy] at hu
    exact h y u hu

theorem assign (h : s.Admitted A) (hv : v.Admitted A) (i : Nat) :
    (s.assign x i v).Admitted A := by
  intro y u hu
  obtain ⟨j, hj⟩ := List.getElem?_of_mem hu
  by_cases hy : y = x ∧ j = i
  · obtain ⟨rfl, rfl⟩ := hy
    rw [assign_vars_index] at hj
    obtain ⟨old, -, rfl⟩ := Option.map_eq_some_iff.mp hj
    exact hv
  · rw [assign_vars_of_ne_index s v fun hx hi => hy ⟨hx, hi⟩] at hj
    exact h y u (List.mem_of_getElem? hj)

end Admitted

/-- No function that a variable holds mentions a private name. -/
def Avoids (Private : String → Prop) (s : State W) : Prop :=
  s.Admitted fun x _ => ¬Private x

/-- Functions have captured only variables that exist, as far as names of `Q` are
concerned. -/
def Closed (Q : String → Prop) (s : State W) : Prop :=
  s.Admitted fun x o => Q x → ∀ i ∈ o, i < (s.vars x).length

theorem Avoids.closed
    {Q : String → Prop} {s : State W} (h : s.Avoids Q) : s.Closed Q :=
  h.mono fun _ _ hx hq => absurd hq hx

/-- The state has at least as many variables of each name. -/
def Grows (s s' : State W) : Prop := ∀ x, (s.vars x).length ≤ (s'.vars x).length

namespace Grows

variable {s s' s'' : State W}

theorem refl (s : State W) : s.Grows s := fun _ => Nat.le_refl _

theorem trans (h : s.Grows s') (h' : s'.Grows s'') : s.Grows s'' :=
  fun x => Nat.le_trans (h x) (h' x)

theorem declare (s : State W) (m : Bool) (x : String) (v : Value) : s.Grows (s.declare m x v) := by
  intro y
  by_cases hy : y = x
  · subst hy
    rw [declare_vars_self, List.length_append]
    exact Nat.le_add_right _ _
  · exact Nat.le_of_eq (by rw [declare_vars_of_ne s m v hy])

theorem assign (s : State W) (x : String) (i : Nat) (v : Value) : s.Grows (s.assign x i v) :=
  fun _ => Nat.le_of_eq (length_vars_assign s i v).symm

end Grows

end State

end Bracket
