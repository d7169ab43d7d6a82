import Bracket.Proofs.Execution.Value

/-!
# Runs

A run reads and changes the variables and the world, records events, and ends
with a result or throws a value.  It has no answer if it does not end within the
steps it is given, or if it comes to a place that has no meaning, such as a jump
outside of any loop.
-/

namespace Bracket

variable {W α β : Type}

/-- What a run ends with: a result or a thrown value, the state that it leaves,
and the events that it recorded. -/
structure Answer (W α : Type) where
  result : Except Value α
  state : State W
  events : List Event

namespace Answer

/-- The answer of a run that follows on events. -/
def after (es : List Event) (a : Answer W α) : Answer W α :=
  { a with events := es ++ a.events }

@[simp] theorem after_nil (a : Answer W α) : a.after [] = a := rfl

@[simp] theorem after_mk
    (es fs : List Event) (r : Except Value α) (s : State W) :
    (Answer.mk r s fs).after es = ⟨r, s, es ++ fs⟩ := rfl

end Answer

/-- What the surroundings answer: a result or an error, the world they leave, and
the events they record. -/
structure Reply (W α : Type) where
  result : Except Value α
  world : W
  events : List Event

/-- A run from a state to an answer, if there is one.  Variables are declared and
assigned on the way, but they do not go away. -/
@[ext] structure Run (W α : Type) where
  answer : State W → Option (Answer W α)
  grows : ∀ {s a}, answer s = some a → s.Grows a.state

instance : CoeFun (Run W α) fun _ => State W → Option (Answer W α) := ⟨Run.answer⟩

namespace Run

/-- No answer. -/
def fail : Run W α where
  answer _ := none
  grows h := nomatch h

/-- Throw a value. -/
def raise (v : Value) : Run W α where
  answer s := some ⟨.error v, s, []⟩
  grows h := Option.some.inj h ▸ .refl _

def result (a : α) : Run W α where
  answer s := some ⟨.ok a, s, []⟩
  grows h := Option.some.inj h ▸ .refl _

/-- One run after the other; a thrown value ends both. -/
def andThen (m : Run W α) (k : α → Run W β) : Run W β where
  answer s :=
    match m s with
    | none => none
    | some ⟨.error v, s', es⟩ => some ⟨.error v, s', es⟩
    | some ⟨.ok a, s', es⟩ => (k a s').map (Answer.after es)
  grows := by
    intro s c h
    split at h
    · exact nomatch h
    · rename_i v s' es hm
      cases h
      exact m.grows hm
    · rename_i a s' es hm
      obtain ⟨b, hb, rfl⟩ := Option.map_eq_some_iff.mp h
      have hgrows : s'.Grows b.state := (k a).grows hb
      exact (m.grows hm).trans hgrows

instance : Monad (Run W) where
  pure := result
  bind := andThen

/-- Let the surroundings act. -/
def act (f : W → Reply W α) : Run W α where
  answer s :=
    some ⟨(f s.world).result, { s with world := (f s.world).world }, (f s.world).events⟩
  grows h := Option.some.inj h ▸ fun _ => Nat.le_refl _

/-- Run, and make a thrown value a result. -/
def attempt (m : Run W α) : Run W (Except Value α) where
  answer s := (m s).map fun a => ⟨.ok a.result, a.state, a.events⟩
  grows h := by
    obtain ⟨a, ha, rfl⟩ := Option.map_eq_some_iff.mp h
    exact m.grows ha

/-- A result, or throw. -/
def ofExcept : Except Value α → Run W α
  | .ok a => pure a
  | .error v => raise v

/-- The value of a variable. -/
def read (x : String) (i : Nat) : Run W Value where
  answer s := (s.vars x)[i]?.map fun v => ⟨.ok v.value, s, []⟩
  grows h := by
    obtain ⟨v, -, rfl⟩ := Option.map_eq_some_iff.mp h
    exact .refl _

/-- Assign a variable, or throw the error of that. -/
def write (denied : Option Datum) (x : String) (i : Nat) (v : Value) : Run W Unit where
  answer s := (s.vars x)[i]?.map fun old =>
    match old.refusal denied with
    | some e => ⟨.error e.1, s, []⟩
    | none => ⟨.ok (), s.assign x i v, []⟩
  grows h := by
    obtain ⟨old, -, rfl⟩ := Option.map_eq_some_iff.mp h
    split
    · exact .refl _
    · exact .assign _ x i v

/-- Declare a variable and return its number. -/
def declare (mutable : Bool) (x : String) (v : Value) : Run W Nat where
  answer s := some ⟨.ok (s.vars x).length, s.declare mutable x v, []⟩
  grows h := Option.some.inj h ▸ .declare _ mutable x v

/-- Declare a variable for each name, with null where values are missing.  All of
them may be assigned. -/
def declareAll : List String → List Value → Run W Declared
  | [], _ => pure []
  | x :: xs, vs => do
      let i ← declare true x (Value.first vs)
      let ds ← declareAll xs vs.tail
      pure ((x, i) :: ds)

/-- Take a turn for each value until one of them ends the loop. -/
def forEach (turn : Value → Run W (Option Completion)) : List Value → Run W Completion
  | [] => pure .normal
  | v :: vs => do
      let ended ← turn v
      match ended with
      | some c => pure c
      | none => forEach turn vs

/-- The first result of a run that may have several. -/
def one (m : Run W (List Value)) : Run W Value := do
  let vs ← m
  pure (Value.first vs)

/-- Run the handler of a thrown value. -/
def recover (handler : Value → Run W α) : Except Value α → Run W (Except Value α)
  | .ok a => pure (.ok a)
  | .error v => attempt (handler v)

/-- Run a guarded region.  The handler runs if the region throws, and what it
throws takes the place of that value; the cleanup runs in any case, and takes the
place of how the region ended unless it ends normally. -/
def guarded
    (region : Run W Completion) (handler : Value → Run W Completion)
    (cleanup : Run W Completion) : Run W Completion := do
  let r ← attempt region
  let r' ← recover handler r
  let c ← cleanup
  match c with
  | .normal => ofExcept r'
  | c => pure c

@[simp] theorem pure_apply (a : α) (s : State W) :
    (pure a : Run W α) s = some ⟨.ok a, s, []⟩ := rfl

@[simp] theorem raise_apply (v : Value) (s : State W) :
    (raise v : Run W α) s = some ⟨.error v, s, []⟩ := rfl

@[simp] theorem act_apply (f : W → Reply W α) (s : State W) :
    act f s =
      some ⟨(f s.world).result, { s with world := (f s.world).world }, (f s.world).events⟩ :=
  rfl

@[simp] theorem declare_apply (mutable : Bool) (x : String) (v : Value) (s : State W) :
    declare mutable x v s = some ⟨.ok (s.vars x).length, s.declare mutable x v, []⟩ := rfl

theorem write_of_accepted
    {x : String} {i : Nat} {old : Variable} {s : State W} {denied : Option Datum}
    (h : (s.vars x)[i]? = some old) (hold : old.refusal denied = none) (v : Value) :
    write denied x i v s = some ⟨.ok (), s.assign x i v, []⟩ := by
  simp [write, h, hold]

theorem write_of_refused
    {x : String} {i : Nat} {old : Variable} {s : State W} {denied : Option Datum} {e : Datum}
    (h : (s.vars x)[i]? = some old) (hold : old.refusal denied = some e) (v : Value) :
    write denied x i v s = some ⟨.error e.1, s, []⟩ := by
  simp [write, h, hold]

theorem bind_apply (m : Run W α) (k : α → Run W β) (s : State W) :
    (m >>= k) s =
      match m s with
      | none => none
      | some ⟨.error v, s', es⟩ => some ⟨.error v, s', es⟩
      | some ⟨.ok a, s', es⟩ => (k a s').map (Answer.after es) := rfl

theorem bind_of_none
    {m : Run W α} {s : State W} (k : α → Run W β) (h : m s = none) :
    (m >>= k) s = none := by
  rw [bind_apply, h]

theorem bind_of_error
    {m : Run W α} {s s' : State W} {v : Value} {es : List Event}
    (k : α → Run W β) (h : m s = some ⟨.error v, s', es⟩) :
    (m >>= k) s = some ⟨.error v, s', es⟩ := by
  rw [bind_apply, h]

theorem bind_of_ok
    {m : Run W α} {s s' : State W} {a : α} {es : List Event}
    (k : α → Run W β) (h : m s = some ⟨.ok a, s', es⟩) :
    (m >>= k) s = (k a s').map (Answer.after es) := by
  rw [bind_apply, h]

/-- A run that goes on without events. -/
theorem bind_of_silent
    {m : Run W α} {s s' : State W} {a : α}
    (k : α → Run W β) (h : m s = some ⟨.ok a, s', []⟩) :
    (m >>= k) s = k a s' := by
  rw [bind_of_ok k h]
  cases k a s' <;> rfl

theorem bind_pure (m : Run W α) : (m >>= pure) = m := by
  ext1
  funext s
  rw [bind_apply]
  match m s with
  | none => rfl
  | some ⟨.error v, s', es⟩ => rfl
  | some ⟨.ok a, s', es⟩ => simp

theorem attempt_of_answer
    {m : Run W α} {s : State W} {a : Answer W α} (h : m s = some a) :
    attempt m s = some ⟨.ok a.result, a.state, a.events⟩ := by
  simp [attempt, h]

end Run

end Bracket
