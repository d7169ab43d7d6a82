import Bracket.Proofs.Execution.Basic

/-!
# Simulations

A simulation relates two runs of the same code.  It says where the variables of
the first run stand in the second and which of them functions may capture, and it
comes with a clause for each primitive way to run.  One induction over the code
then shows that the two runs of any code are related (`Expr.results_related`,
`Stmt.execList_related`), whatever the relation is about.

Values of the two runs are alike if they differ in the numbers of captured
variables only.  What a function captured has to be admitted, so that calling it
stays within the simulation.
-/

namespace Bracket

variable {W α β : Type}

/-- The outcomes of two runs are related: their results are, or the values that
they throw are. -/
inductive Except.Related (V : Value → Value → Prop) (R : α → α → Prop) :
    Except Value α → Except Value α → Prop
  | ok {a a' : α} : R a a' → Related V R (.ok a) (.ok a')
  | error {v v' : Value} : V v v' → Related V R (.error v) (.error v')

theorem Except.Related.bind
    {V : Value → Value → Prop} {R : α → α → Prop} {Q : β → β → Prop}
    {r r' : Except Value α} {k k' : α → Except Value β} (h : Except.Related V R r r')
    (hk : ∀ a a', R a a' → Except.Related V Q (k a) (k' a')) :
    Except.Related V Q (r >>= k) (r' >>= k') := by
  cases h with
  | ok h => exact hk _ _ h
  | error h => exact .error h

/-- Related replies differ at most in their results. -/
structure Reply.Related
    (V : Value → Value → Prop) (R : α → α → Prop) (r r' : Reply W α) : Prop where
  result : Except.Related V R r.result r'.result
  world : r'.world = r.world
  events : r'.events = r.events

/-- The second value is the first one with variables where they stand in the second
run. -/
def Value.Alike (A : String → Option Nat → Prop) (place : Placement) (v v' : Value) : Prop :=
  v' = v.move place ∧ v.Admitted A

/-- Values without functions are the same in both runs. -/
theorem Value.Alike.of_closures_eq_nil
    {A : String → Option Nat → Prop} {place : Placement} {v : Value} (h : v.closures = []) :
    v.Alike A place v :=
  ⟨(v.move_of_closures_eq_nil place h).symm, Value.admitted_of_closures_eq_nil h⟩

/-- A relation between runs with a clause for each primitive. -/
structure Simulation (W : Type) where
  /-- A function may mention a name and mean the variable by it. -/
  Admits : String → Option Nat → Prop
  place : Placement
  Rel : {α : Type} → (α → α → Prop) → Run W α → Run W α → Prop
  fail : ∀ {α : Type} {R : α → α → Prop}, Rel R Run.fail Run.fail
  pure : ∀ {α : Type} {R : α → α → Prop} {a a' : α}, R a a' → Rel R (pure a) (pure a')
  bind : ∀ {α β : Type} {R : α → α → Prop} {Q : β → β → Prop} {m m' : Run W α}
    {k k' : α → Run W β},
    Rel R m m' → (∀ a a', R a a' → Rel Q (k a) (k' a')) → Rel Q (m >>= k) (m' >>= k')
  act : ∀ {α : Type} {R : α → α → Prop} {f f' : W → Reply W α},
    (∀ w, Reply.Related (Value.Alike Admits place) R (f w) (f' w)) →
      Rel R (Run.act f) (Run.act f')
  attempt : ∀ {α : Type} {R : α → α → Prop} {m m' : Run W α}, Rel R m m' →
    Rel (Except.Related (Value.Alike Admits place) R) (Run.attempt m) (Run.attempt m')
  read : ∀ {x : String} {i : Nat}, Admits x (some i) →
    Rel (Value.Alike Admits place) (Run.read x i) (Run.read x (place x i))
  write : ∀ {denied : Option Datum} {x : String} {i : Nat} {v v' : Value},
    Admits x (some i) → Value.Alike Admits place v v' →
      Rel (fun _ _ => True) (Run.write denied x i v) (Run.write denied x (place x i) v')
  declare : ∀ {mutable : Bool} {x : String} {o : Option Nat} {v v' : Value},
    Admits x o → Value.Alike Admits place v v' →
      Rel (fun i i' => i' = place x i ∧ Admits x (some i))
        (Run.declare mutable x v) (Run.declare mutable x v')

namespace Simulation

variable (S : Simulation W)

abbrev Alike (v v' : Value) : Prop := v.Alike S.Admits S.place v'

def AllAlike (vs vs' : List Value) : Prop :=
  vs' = vs.map (Value.move S.place) ∧ ∀ v ∈ vs, v.Admitted S.Admits

/-- Two completions of statements are alike. -/
def Ends (c c' : Completion) : Prop :=
  c' = c.move S.place ∧ ∀ v ∈ c.results, v.Admitted S.Admits

/-- Two turns of a loop end it alike, or both do not end it. -/
def Turns (c c' : Option Completion) : Prop :=
  c' = c.map (Completion.move S.place) ∧ ∀ d ∈ c, ∀ v ∈ d.results, v.Admitted S.Admits

/-- The same variables are declared in both runs. -/
def Declares (ds ds' : Declared) : Prop :=
  ds' = ds.map (fun d => (d.1, S.place d.1 d.2)) ∧ ∀ d ∈ ds, S.Admits d.1 (some d.2)

/-- Two runs of a statement end alike and declare the same variables. -/
def Finishes (r r' : Completion × Declared) : Prop :=
  S.Ends r.1 r'.1 ∧ S.Declares r.2 r'.2

/-- Names mean the same variables in both runs, and these are admitted. -/
def Agree (names : List String) (env env' : Env) : Prop :=
  ∀ x ∈ names, S.Admits x (env x) ∧ env' x = (env x).map (S.place x)

/-- Two engines run related code to related answers. -/
structure Engines (eng eng' : Engine W) : Prop where
  call : ∀ {f f' : Value} {args args' : List Value}, S.Alike f f' → S.AllAlike args args' →
    S.Rel S.AllAlike (eng.call f args) (eng'.call f' args')
  iterate : ∀ {turn turn' : Run W (Option Completion)},
    S.Rel S.Turns turn turn' → S.Rel S.Ends (eng.iterate turn) (eng'.iterate turn')

variable {S}

/-! ## Values and environments -/

theorem alike_plain {v : Value} (h : v.closures = []) : S.Alike v v := .of_closures_eq_nil h

theorem alike_datum (d : Datum) : S.Alike d.1 d.1 := alike_plain d.2

theorem Alike.seen_eq {v v' : Value} (h : S.Alike v v') : v'.seen = v.seen := by
  rw [h.1, Value.seen_move]

theorem Alike.isNull_eq {v v' : Value} (h : S.Alike v v') : v'.isNull = v.isNull := by
  rw [h.1, Value.isNull_move]

theorem Alike.truthy_eq {v v' : Value} (h : S.Alike v v') (rt : Runtime W) :
    rt.truthy v' = rt.truthy v := by
  rw [← rt.truthy_seen, Alike.seen_eq h, rt.truthy_seen]

namespace AllAlike

variable {v v' : Value} {vs vs' us us' : List Value}

theorem nil : S.AllAlike [] [] := ⟨rfl, by simp⟩

theorem cons (hv : S.Alike v v') (hvs : S.AllAlike vs vs') : S.AllAlike (v :: vs) (v' :: vs') := by
  obtain ⟨rfl, hv⟩ := hv
  obtain ⟨rfl, hvs⟩ := hvs
  exact ⟨rfl, List.forall_mem_cons.mpr ⟨hv, hvs⟩⟩

theorem singleton (hv : S.Alike v v') : S.AllAlike [v] [v'] := .cons hv .nil

theorem append (hvs : S.AllAlike vs vs') (hus : S.AllAlike us us') :
    S.AllAlike (vs ++ us) (vs' ++ us') := by
  obtain ⟨rfl, hvs⟩ := hvs
  obtain ⟨rfl, hus⟩ := hus
  exact ⟨List.map_append.symm, List.forall_mem_append.mpr ⟨hvs, hus⟩⟩

theorem first (h : S.AllAlike vs vs') : S.Alike (Value.first vs) (Value.first vs') := by
  obtain ⟨rfl, hvs⟩ := h
  exact ⟨Value.first_map_move S.place vs, Value.admitted_first hvs⟩

theorem tail (h : S.AllAlike vs vs') : S.AllAlike vs.tail vs'.tail := by
  obtain ⟨rfl, hvs⟩ := h
  exact ⟨List.map_tail.symm, fun v hv => hvs v (List.mem_of_mem_tail hv)⟩

theorem sequence (h : S.AllAlike vs vs') : S.Alike (.sequence vs) (.sequence vs') := by
  obtain ⟨rfl, hvs⟩ := h
  exact ⟨(Value.move_sequence S.place vs).symm, Value.admitted_sequence.mpr hvs⟩

theorem seen_eq (h : S.AllAlike vs vs') : vs'.map Value.seen = vs.map Value.seen := by
  rw [h.1, List.map_map]
  exact List.map_congr_left fun v _ => Value.seen_move S.place v

theorem data (ds : List Datum) : S.AllAlike (ds.map Subtype.val) (ds.map Subtype.val) := by
  induction ds with
  | nil => exact nil
  | cons d ds ih => exact .cons (alike_datum d) ih

end AllAlike

theorem alike_record_cons
    {v v' : Value} {fs fs' : List (String × Value)} (k : String) (hv : S.Alike v v')
    (hfs : S.Alike (.record fs) (.record fs')) :
    S.Alike (.record ((k, v) :: fs)) (.record ((k, v') :: fs')) := by
  obtain ⟨rfl, hv⟩ := hv
  obtain ⟨hmoved, hfs⟩ := hfs
  rw [Value.move_record] at hmoved
  cases hmoved
  refine ⟨by rw [Value.move_record, List.map_cons], Value.admitted_record.mpr ?_⟩
  exact List.forall_mem_cons.mpr ⟨hv, Value.admitted_record.mp hfs⟩

namespace Ends

theorem normal : S.Ends .normal .normal := ⟨rfl, by simp [Completion.results]⟩

theorem broke : S.Ends .broke .broke := ⟨rfl, by simp [Completion.results]⟩

theorem continued : S.Ends .continued .continued := ⟨rfl, by simp [Completion.results]⟩

theorem returned {vs vs' : List Value} (h : S.AllAlike vs vs') :
    S.Ends (.returned vs) (.returned vs') := by
  obtain ⟨rfl, hvs⟩ := h
  exact ⟨rfl, hvs⟩

theorem turn {c c' : Completion} (h : S.Ends c c') : S.Turns (some c) (some c') := by
  obtain ⟨rfl, hc⟩ := h
  exact ⟨rfl, by rintro d ⟨⟩; exact hc⟩

theorem afterTurn {c c' : Completion} (h : S.Ends c c') : S.Turns c.afterTurn c'.afterTurn := by
  obtain ⟨rfl, hc⟩ := h
  cases c with
  | normal | continued => exact ⟨rfl, by simp [Completion.afterTurn]⟩
  | broke => exact normal.turn
  | returned vs => exact turn ⟨rfl, hc⟩

theorem finishes {c c' : Completion} (h : S.Ends c c') : S.Finishes (c, []) (c', []) :=
  ⟨h, rfl, by simp⟩

end Ends

theorem Turns.none : S.Turns none none := ⟨rfl, by simp⟩

theorem Declares.cons
    {x : String} {i i' : Nat} {ds ds' : Declared}
    (hi : i' = S.place x i ∧ S.Admits x (some i)) (hds : S.Declares ds ds') :
    S.Declares ((x, i) :: ds) ((x, i') :: ds') := by
  obtain ⟨rfl, hi⟩ := hi
  obtain ⟨rfl, hds⟩ := hds
  exact ⟨rfl, List.forall_mem_cons.mpr ⟨hi, hds⟩⟩

theorem Declares.finishes
    {ds ds' : Declared} (h : S.Declares ds ds') : S.Finishes (.normal, ds) (.normal, ds') :=
  ⟨.normal, h⟩

namespace Agree

variable {names names' a b : List String} {env env' : Env} {x : String}

theorem mono
    (h : S.Agree names env env') (hsub : ∀ x ∈ names', x ∈ names) : S.Agree names' env env' :=
  fun x hx => h x (hsub x hx)

theorem left (h : S.Agree (a ++ b) env env') : S.Agree a env env' :=
  h.mono fun _ hx => List.mem_append_left b hx

theorem right (h : S.Agree (a ++ b) env env') : S.Agree b env env' :=
  h.mono fun _ hx => List.mem_append_right a hx

theorem head
    (h : S.Agree (x :: names) env env') :
    S.Admits x (env x) ∧ env' x = (env x).map (S.place x) :=
  h x List.mem_cons_self

theorem tail (h : S.Agree (x :: names) env env') : S.Agree names env env' :=
  h.mono fun _ hx => List.mem_cons_of_mem x hx

theorem set
    {i i' : Nat} (h : S.Agree names env env') (hi : i' = S.place x i ∧ S.Admits x (some i)) :
    S.Agree names (env.set x i) (env'.set x i') := by
  obtain ⟨rfl, hi⟩ := hi
  intro y hy
  by_cases hyx : y = x
  · subst hyx
    rw [Env.set_self, Env.set_self]
    exact ⟨hi, rfl⟩
  · rw [Env.set_of_ne env i hyx, Env.set_of_ne env' _ hyx]
    exact h y hy

/-- The same declarations keep environments in agreement. -/
theorem extend
    {ds ds' : Declared} (h : S.Agree names env env') (hds : S.Declares ds ds') :
    S.Agree names (env.extend ds) (env'.extend ds') := by
  obtain ⟨rfl, hds⟩ := hds
  induction ds generalizing env env' with
  | nil => exact h
  | cons d ds ih =>
      rw [List.forall_mem_cons] at hds
      exact ih (h.set ⟨rfl, hds.1⟩) hds.2

/-- A function that is created in both runs. -/
theorem closure
    {f : Func} (h : S.Agree f.names env env') :
    S.Alike (.closure f (env.restrict f.names)) (.closure f (env'.restrict f.names)) := by
  refine ⟨?_, Value.admitted_closure.mpr fun x hx => ?_⟩
  · rw [Value.move_closure]
    congr 1
    funext x
    by_cases hx : x ∈ f.names
    · rw [Env.moved_of_mem _ _ hx, Env.restrict_of_mem _ hx, Env.restrict_of_mem _ hx]
      exact (h x hx).2
    · simp [Env.moved, Env.restrict, hx]
  · rw [Env.restrict_of_mem env hx]
    exact (h x hx).1

end Agree

/-! ## Derived ways to run -/

section

variable {R : α → α → Prop}

/-- The surroundings are only looked at. -/
theorem inspect
    {f g : W → Except Value α} (h : ∀ w, Except.Related S.Alike R (f w) (g w)) :
    S.Rel R (Run.act fun w => ⟨f w, w, []⟩) (Run.act fun w => ⟨g w, w, []⟩) :=
  S.act fun w => ⟨h w, rfl, rfl⟩

theorem raise {v v' : Value} (h : S.Alike v v') : S.Rel R (Run.raise v) (Run.raise v') :=
  inspect (f := fun _ => .error v) (g := fun _ => .error v') fun _ => .error h

theorem ofExcept
    {r r' : Except Value α} (h : Except.Related S.Alike R r r') :
    S.Rel R (Run.ofExcept r) (Run.ofExcept r') := by
  cases h with
  | ok h => exact S.pure h
  | error h => exact raise h

theorem one
    {m m' : Run W (List Value)} (h : S.Rel S.AllAlike m m') : S.Rel S.Alike m.one m'.one :=
  S.bind h fun _ _ hvs => S.pure hvs.first

/-- A single value as the list of results. -/
theorem singletonOf
    {m m' : Run W Value} (h : S.Rel S.Alike m m') :
    S.Rel S.AllAlike (m >>= fun v => Pure.pure [v]) (m' >>= fun v => Pure.pure [v]) :=
  S.bind h fun _ _ hv => S.pure (.singleton hv)

/-- The completion of a statement whose declarations end with it. -/
theorem completionOf
    {m m' : Run W (Completion × Declared)} (h : S.Rel S.Finishes m m') :
    S.Rel S.Ends (m >>= fun r => Pure.pure r.1) (m' >>= fun r => Pure.pure r.1) :=
  S.bind h fun _ _ hr => S.pure hr.1

theorem turnOf
    {m m' : Run W (Completion × Declared)} (h : S.Rel S.Finishes m m') :
    S.Rel S.Turns (m >>= fun r => Pure.pure r.1.afterTurn)
      (m' >>= fun r => Pure.pure r.1.afterTurn) :=
  S.bind h fun _ _ hr => S.pure hr.1.afterTurn

/-- A statement that ends like other code and declares nothing for the code behind. -/
theorem statementOf
    {m m' : Run W Completion} (h : S.Rel S.Ends m m') :
    S.Rel S.Finishes (m >>= fun c => Pure.pure (c, [])) (m' >>= fun c => Pure.pure (c, [])) :=
  S.bind h fun _ _ hc => S.pure hc.finishes

theorem branchOf
    {m m' : Run W (Completion × Declared)} (h : S.Rel S.Finishes m m') :
    S.Rel S.Finishes (m >>= fun r => Pure.pure (r.1, [])) (m' >>= fun r => Pure.pure (r.1, [])) :=
  S.bind h fun _ _ hr => S.pure hr.1.finishes

end

theorem declareAll
    {xs : List String} {vs vs' : List Value}
    (hxs : ∀ x ∈ xs, ∃ o, S.Admits x o) (hvs : S.AllAlike vs vs') :
    S.Rel S.Declares (Run.declareAll xs vs) (Run.declareAll xs vs') := by
  induction xs generalizing vs vs' with
  | nil => exact S.pure ⟨rfl, by simp⟩
  | cons x xs ih =>
      obtain ⟨⟨o, hx⟩, hxs⟩ := List.forall_mem_cons.mp hxs
      apply S.bind (S.declare hx hvs.first)
      intro i i' hi
      apply S.bind (ih hxs hvs.tail)
      intro ds ds' hds
      exact S.pure (.cons hi hds)

theorem forEach
    {turn turn' : Value → Run W (Option Completion)} {vs vs' : List Value}
    (hturn : ∀ v v', S.Alike v v' → S.Rel S.Turns (turn v) (turn' v'))
    (hvs : S.AllAlike vs vs') :
    S.Rel S.Ends (Run.forEach turn vs) (Run.forEach turn' vs') := by
  obtain ⟨rfl, hvs⟩ := hvs
  induction vs with
  | nil => exact S.pure .normal
  | cons v vs ih =>
      rw [List.forall_mem_cons] at hvs
      apply S.bind (hturn v _ ⟨rfl, hvs.1⟩)
      rintro ended _ ⟨rfl, hended⟩
      cases ended with
      | some c => exact S.pure ⟨rfl, hended c rfl⟩
      | none => exact ih hvs.2

theorem recover
    {handler handler' : Value → Run W Completion} {r r' : Except Value Completion}
    (hhandler : ∀ v v', S.Alike v v' → S.Rel S.Ends (handler v) (handler' v'))
    (hr : Except.Related S.Alike S.Ends r r') :
    S.Rel (Except.Related S.Alike S.Ends) (Run.recover handler r) (Run.recover handler' r') := by
  cases hr with
  | ok hc => exact S.pure (.ok hc)
  | error hv => exact S.attempt (hhandler _ _ hv)

theorem guarded
    {region region' cleanup cleanup' : Run W Completion}
    {handler handler' : Value → Run W Completion}
    (hregion : S.Rel S.Ends region region')
    (hhandler : ∀ v v', S.Alike v v' → S.Rel S.Ends (handler v) (handler' v'))
    (hcleanup : S.Rel S.Ends cleanup cleanup') :
    S.Rel S.Ends (Run.guarded region handler cleanup)
      (Run.guarded region' handler' cleanup') := by
  apply S.bind (S.attempt hregion)
  intro r r' hr
  apply S.bind (recover hhandler hr)
  intro e e' he
  apply S.bind hcleanup
  rintro c _ ⟨rfl, hc⟩
  cases c with
  | normal => exact ofExcept he
  | returned vs | broke | continued => exact S.pure ⟨rfl, hc⟩

end Simulation

end Bracket
