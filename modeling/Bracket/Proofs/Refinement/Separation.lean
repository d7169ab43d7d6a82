import Bracket.Proofs.Execution.Entry
import Bracket.Proofs.Refinement.Holding

/-!
# Held code and the names around it

An expansion declares variables of its own next to those of the held code.  As
long as the held code mentions none of them, it runs in the expansion as it runs
alone: `Mirrors` relates the two runs, and what belongs to an outer expansion is
left alone by an inner one (`State.Spares`).
-/

namespace Bracket

variable {W : Type}

/-- The second environment and state are the first ones among private variables. -/
structure Mirrors
    (Private : String → Prop) (place : Placement) (env : Env) (s : State W) (env' : Env)
    (S : State W) : Prop where
  env : env.SameOff Private env'
  placed : s.Placed Private place S

/-- The name means a variable that is none of the first state's and holds the
value. -/
def Env.HoldsOwn
    (place : Placement) (s : State W) (env : Env) (S : State W) (x : String) (v : Value) : Prop :=
  ∃ j m, env x = some j ∧ s.Private place S x j ∧ (S.vars x)[j]? = some ⟨v, m⟩

section

variable {Private Q : String → Prop} {place : Placement} {env env' env'' : Env}
  {s S S₀ S' : State W} {x : String} {v : Value}

theorem Mirrors.adds
    (h : Mirrors Private place env s env' S) (henv : env'.SameOff Q env'') (hS : S.Adds Q S')
    (hQ : ∀ x, Q x → Private x) : Mirrors Private place env s env'' S' :=
  ⟨h.env.trans (henv.mono hQ), h.placed.adds (hS.mono hQ)⟩

theorem Env.HoldsNew.own
    (h : env'.HoldsNew S₀ S x v) (hplaced : s.Placed Q place S₀) :
    env'.HoldsOwn place s S x v := by
  obtain ⟨j, m, hj, hnew, hv⟩ := h
  exact ⟨j, m, hj, hplaced.private_of_length_le hnew (List.getElem?_eq_some_iff.mp hv).1, hv⟩

namespace Env.HoldsOwn

theorem of_adds
    (h : env'.HoldsOwn place s S x v) (henv : env'' x = env' x) (hS : S.Adds Q S') :
    env''.HoldsOwn place s S' x v := by
  obtain ⟨j, m, hj, hown, hv⟩ := h
  obtain ⟨hown', hkept⟩ := State.Keeps.of_adds hS x j hown
  exact ⟨j, m, henv.trans hj, hown', hkept.trans hv⟩

/-- Inner code leaves the variable alone. -/
theorem of_spares
    (h : env'.HoldsOwn place s S x v) (hS : s.Spares place S S') : env'.Holds S' x v := by
  obtain ⟨j, m, hj, hown, hv⟩ := h
  exact ⟨j, m, hj, (hS x j hown).trans hv⟩

end Env.HoldsOwn

end

namespace Context

variable (c : Context)

/-- Items that stay apart from private names, which are the names generated for
resources before number `n` and the bound names. -/
structure Apart (Private : String → Prop) (n : Nat) (items : List Item) : Prop where
  temps : ∀ role j, j < n → Private (c.temp role j)
  bound : ∀ item ∈ items, ∀ x ∈ item.boundNames, Private x ∧ ¬c.isReserved x
  acquire : ∀ item ∈ items, ∀ x ∈ item.acquire.names, ¬Private x

variable {c} {Private : String → Prop} {place : Placement} {n k : Nat} {item : Item}
  {items : List Item} {body : List Stmt} {rt : Runtime W} {env env' : Env} {s s' S : State W}

/-- Among private variables statements run to an ending, with variables where they
stand there, and leave the others alone. -/
def RunsAmong
    (rt : Runtime W) (Private : String → Prop) (place : Placement) (s : State W) (env' : Env)
    (S : State W) (code : List Stmt) (r : Ending) (es : List Event) : Prop :=
  ∃ m place' S', Stmt.execList rt (rt.engine m) env' code S = some ⟨r.move place', S', es⟩ ∧
    place'.MovesOnly Private ∧ s.Spares place S S'

/-- Code in front that declares further private variables. -/
theorem RunsAmong.of_keeps
    {place' : Placement} {env'' : Env} {S' : State W} {code code' : List Stmt} {r : Ending}
    {es : List Event} (h : RunsAmong rt Private place' s' env'' S' code' r es)
    (hkeeps : s.Keeps place S place' s' S')
    (hrun : ∀ eng, Stmt.execList rt eng env' code S = Stmt.execList rt eng env'' code' S') :
    RunsAmong rt Private place s env' S code r es := by
  obtain ⟨m, place'', S'', hrun', hplace, hspares⟩ := h
  exact ⟨m, place'', S'', (hrun _).trans hrun', hplace, hkeeps.trans_spares hspares⟩

/-- Among private variables the body runs as `inner` says. -/
def RunsInside
    (rt : Runtime W) (Private : String → Prop) (env : Env) (body : List Stmt)
    (inner : State W → Answer W Completion → Prop) : Prop :=
  ∀ ⦃place s env' S r s' es⦄, inner s ⟨r, s', es⟩ → Mirrors Private place env s env' S →
    RunsAmong rt Private place s env' S body r es

/-- A body that mentions no private name runs among private variables as it runs
alone. -/
theorem runsInside
    {inner : State W → Answer W Completion → Prop}
    (hnames : ∀ x ∈ Stmt.namesList body, ¬Private x)
    (hinner : ∀ s a, inner s a → rt.Executes env body s a) :
    RunsInside rt Private env body inner := by
  intro place s env' S r s' es hrun hmirrors
  obtain ⟨m, hrun⟩ := hinner _ _ hrun
  obtain ⟨place', S', hrun', hplaced, hkeeps⟩ :=
    Stmt.execList_placed hnames hmirrors.env hmirrors.placed hrun
  exact ⟨m, place', S', hrun', hplaced.same, hkeeps.spares⟩

namespace Apart

theorem tail (h : c.Apart Private n (item :: items)) : c.Apart Private n items :=
  ⟨h.temps, fun i hi => h.bound i (List.mem_cons_of_mem item hi),
    fun i hi => h.acquire i (List.mem_cons_of_mem item hi)⟩

theorem owns (h : c.Apart Private n items) (hk : k < n) : ∀ x, c.Owns k x → Private x := by
  rintro x ⟨role, rfl⟩
  exact h.temps role k hk

/-- A bound name is not a generated one. -/
theorem not_bound
    (h : c.Apart Private n (item :: items)) (role : Role) (j : Nat) :
    ¬c.temp role j ∈ item.boundNames :=
  fun hmem => (h.bound item List.mem_cons_self _ hmem).2 (c.isReserved_temp role j)

/-- An acquisition runs in the expansion as it runs alone. -/
theorem run_acquire
    (h : c.Apart Private n (item :: items)) (hmirrors : Mirrors Private place env s env' S)
    (hacquire : rt.Evaluates env item.acquire s ⟨.ok (.manager k), s', []⟩) :
    ∃ m place' S', (∀ {m'}, m ≤ m' → (item.acquire.results rt (rt.engine m') env').one S =
        some ⟨.ok (.manager k), S', []⟩) ∧
      Mirrors Private place' env s' env' S' ∧ s.Keeps place S place' s' S' := by
  obtain ⟨m, hrun⟩ := hacquire
  obtain ⟨place', S', hrun', hplaced, hkeeps⟩ := Expr.one_results_placed
    (h.acquire item List.mem_cons_self) hmirrors.env hmirrors.placed hrun
  exact ⟨m, place', S', fun hle => Expr.one_results_mono hle hrun', ⟨hmirrors.env, hplaced⟩,
    hkeeps⟩

/-- A resource that can be acquired is acquired and entered, and the code behind
goes on. -/
theorem run_enter
    (h : c.Apart Private n (item :: items)) (hk : k < n) (hrt : rt.Follows c.conventions)
    (isAsync : Bool) (hmirrors : Mirrors Private place env s env' S)
    (hacquire : rt.Evaluates env item.acquire s ⟨.ok (.manager k), s', []⟩)
    (hfails : (rt.resource k).acquireFails = none) :
    ∃ m place' env'' S', Mirrors Private place' env s' env'' S' ∧
      s.Keeps place S place' s' S' ∧ S.Grows S' ∧
      env''.HoldsOwn place' s' S' (c.temp .manager k) (.manager k) ∧
      (∀ p, item.binding = some p → env''.Holds S' (c.temp .value k) (rt.entryValue k).1) ∧
      ∀ {m'} rest, m ≤ m' →
        Stmt.execList rt (rt.engine m') env'
            (c.enterStatements k item (.suspendIf isAsync (c.enterCall k)) ++ rest) S =
          (Stmt.execList rt (rt.engine m') env'' rest S').map (Answer.after [.acquire k]) := by
  obtain ⟨m, place', S₁, hrun, hmirrors₁, hkeeps⟩ := h.run_acquire hmirrors hacquire
  obtain ⟨env₂, S₂, hentered, hrun'⟩ :=
    execList_enterStatements isAsync item env' S₁ hrt hfails
  have hgrows : S.Grows S₁ :=
    (item.acquire.results rt (rt.engine m) env').one.grows (hrun (Nat.le_refl m))
  exact ⟨m, place', env₂, S₂, hmirrors₁.adds hentered.env hentered.state (h.owns hk),
    hkeeps.trans (.of_adds hentered.state), hgrows.trans hentered.state.grows,
    hentered.manager.own hmirrors₁.placed, hentered.value,
    fun rest hle => hrun' rest (hrun hle)⟩

/-- A resource that cannot be acquired throws. -/
theorem run_enter_of_fails
    {e : Fault}
    (h : c.Apart Private n (item :: items)) (hrt : rt.Follows c.conventions)
    (isAsync : Bool) (hmirrors : Mirrors Private place env s env' S)
    (hacquire : rt.Evaluates env item.acquire s ⟨.ok (.manager k), s', []⟩)
    (hfails : (rt.resource k).acquireFails = some e) (rest : List Stmt) :
    RunsAmong rt Private place s env' S
      (c.enterStatements k item (.suspendIf isAsync (c.enterCall k)) ++ rest) (.error (.fault e))
      [.acquire k] := by
  obtain ⟨m, place', S₁, hrun, hmirrors₁, hkeeps⟩ := h.run_acquire hmirrors hacquire
  obtain ⟨S₂, hS₂, hrun'⟩ :=
    execList_enterStatements_of_fails isAsync item env' S₁ hrt hfails
  exact ⟨m, place', S₂, hrun' rest (hrun (Nat.le_refl m)), hmirrors₁.placed.same,
    (hkeeps.trans (.of_adds hS₂)).spares⟩

/-- An entry value that can be bound is bound, and the code behind goes on. -/
theorem run_bind
    (h : c.Apart Private n (item :: items)) (hmirrors : Mirrors Private place env s env' S)
    (hvalue : ∀ p, item.binding = some p →
      env'.Holds S (c.temp .value k) (rt.entryValue k).1)
    (hbinds : rt.Binds c.conventions s.world k item) :
    ∃ env'' S', Mirrors Private place env s env'' S' ∧ s.Keeps place S place s S' ∧
      ∀ eng rest, Stmt.execList rt eng env' (c.bindEntryValue k item.binding ++ rest) S =
        Stmt.execList rt eng env'' rest S' := by
  cases hbinding : item.binding with
  | none => exact ⟨env', S, hmirrors, .of_adds (.refl Private S), fun _ _ => rfl⟩
  | some p =>
      have hnames : item.boundNames = p.names := by simp [Item.boundNames, hbinding]
      obtain ⟨vs, hunpack⟩ := hbinds p hbinding
      have hrun := binds_bindEntryValue rt (Q := (· ∈ item.boundNames))
        (fun x hx => hnames ▸ hx) (hvalue p hbinding) (h.not_bound .value k)
      rw [hmirrors.placed.world, hunpack] at hrun
      obtain ⟨env'', S', henv, hS, hrun⟩ := hrun
      exact ⟨env'', S',
        hmirrors.adds henv hS fun x hx => (h.bound item List.mem_cons_self x hx).1,
        .of_adds hS, hrun⟩

/-- An entry value that cannot be bound throws. -/
theorem run_bind_of_error
    {p : Pattern} {v : Value}
    (h : c.Apart Private n (item :: items)) (hmirrors : Mirrors Private place env s env' S)
    (hvalue : ∀ p, item.binding = some p →
      env'.Holds S (c.temp .value k) (rt.entryValue k).1)
    (hbinding : item.binding = some p)
    (hunpack : rt.unpack c.conventions s.world p (rt.entryValue k).1 = .error v)
    (rest : List Stmt) :
    RunsAmong rt Private place s env' S (c.bindEntryValue k item.binding ++ rest) (.error v)
      [] := by
  have hnames : item.boundNames = p.names := by simp [Item.boundNames, hbinding]
  have hrun := binds_bindEntryValue rt (Q := (· ∈ item.boundNames))
    (fun x hx => hnames ▸ hx) (hvalue p hbinding) (h.not_bound .value k)
  rw [hmirrors.placed.world, hunpack] at hrun
  obtain ⟨S', hS, hrun⟩ := hrun
  have hmove : Ending.move (fun _ i => i) (.error v) = .error v := by
    rw [Ending.move, Value.move_id]
  refine ⟨0, fun _ i => i, S', ?_, fun _ _ _ => rfl, (State.Keeps.of_adds hS).spares⟩
  rw [hbinding, hrun, hmove]

end Apart

end Context

/-! ## Lowered statements -/

namespace Scoped

/-- The names that the items of a statement bind. -/
def boundNames (s : Scoped) : List String := s.items.flatMap Item.boundNames

/-- The acquisitions and the body of a statement mention neither a bound name nor
a reserved one. -/
structure Separate (c : Context) (s : Scoped) : Prop where
  acquire : ∀ item ∈ s.items, ∀ x ∈ item.acquire.names, ¬c.isReserved x ∧ x ∉ s.boundNames
  body : ∀ x ∈ Stmt.namesList s.body, ¬c.isReserved x ∧ x ∉ s.boundNames

/-- The lowered items and the lowered body of a statement that stands on its
own. -/
def LowersInto
    (c : Context) (inAsync : Bool) (s : Scoped) (items : List Item) (body : List Stmt) : Prop :=
  ∃ i j, (Item.lowerList c inAsync s.items).run s.items.length = .ok (items, i) ∧
    (Stmt.lowerList c inAsync s.body).run i = .ok (body, j)

/-- The names that an expansion of the statement declares. -/
def Declares (c : Context) (s : Scoped) (x : String) : Prop :=
  (∃ role j, j < s.items.length ∧ x = c.temp role j) ∨ x ∈ s.boundNames

variable {c : Context} {s : Scoped} {inAsync : Bool} {items : List Item}
  {body code : List Stmt}

theorem mem_boundNames_iff
    {x : String} : x ∈ s.boundNames ↔ ∃ item ∈ s.items, x ∈ item.boundNames :=
  List.mem_flatMap

/-- A statement on its own becomes the expansion of its lowered parts. -/
theorem expandScoped_of_lowerAlone
    (hcode : s.lowerAlone c inAsync = .ok code)
    (hparts : s.LowersInto c (s.isAsync || inAsync) items body) :
    c.expandScoped 0 ⟨items, body, s.isAsync⟩ = .ok code := by
  obtain ⟨⟨code', j⟩, hrun, hcode⟩ := Except.bind_eq_ok.mp hcode
  cases hcode
  obtain ⟨-, -, items', body', i, hitems, hbody, hexpand⟩ := lower_eq_ok.mp hrun
  obtain ⟨i', j', hitems', hbody'⟩ := hparts
  rw [Nat.zero_add, hitems'] at hitems
  cases hitems
  rw [hbody'] at hbody
  cases hbody
  exact hexpand

/-- What lowering puts into the parts of a statement is not declared by its
expansion. -/
theorem not_declares_of_introduces
    {x : String} (hreserved : ∀ y ∈ s.boundNames, ¬c.isReserved y)
    (hcalls : c.conventions.expansion = .protectedCall →
      "pcall" ∉ s.boundNames ∧ "table" ∉ s.boundNames)
    (hx : c.Introduces s.items.length x) : ¬s.Declares c x := by
  rintro (⟨role, j, hj, rfl⟩ | hbound)
  · rcases hx with ⟨role', j', hj', heq⟩ | ⟨-, heq | heq⟩
    · exact c.temp_ne_of_lt role role' (Nat.lt_of_lt_of_le hj hj') heq
    · exact c.temp_ne_pcall role j heq
    · exact c.temp_ne_table role j heq
  · rcases hx with ⟨role, j, -, rfl⟩ | ⟨hstyle, rfl | rfl⟩
    · exact hreserved _ hbound (c.isReserved_temp role j)
    · exact (hcalls hstyle).1 hbound
    · exact (hcalls hstyle).2 hbound

theorem not_declares
    {x : String} (hx : ¬c.isReserved x ∧ x ∉ s.boundNames) : ¬s.Declares c x := by
  rintro (⟨role, j, -, rfl⟩ | hbound)
  · exact hx.1 (c.isReserved_temp role j)
  · exact hx.2 hbound

theorem not_isReserved_of_mem_boundNames
    {i : Nat} (hstyle : c.conventions.expansion ≠ .native)
    (hitems : (Item.lowerList c inAsync s.items).run s.items.length = .ok (items, i)) :
    ∀ y ∈ s.boundNames, ¬c.isReserved y := by
  intro y hy
  obtain ⟨-, hchecks, -⟩ := Item.lowersItem_of_lowerList hitems
  obtain ⟨item, hmem, hy⟩ := mem_boundNames_iff.mp hy
  exact Context.not_isReserved_of_checkBinding hstyle (hchecks item hmem) hy

/-- The lowered items of a statement stay apart from what its expansion
declares. -/
theorem LowersInto.apart
    (hparts : s.LowersInto c inAsync items body) (hstyle : c.conventions.expansion ≠ .native)
    (hcalls : c.conventions.expansion = .protectedCall →
      "pcall" ∉ s.boundNames ∧ "table" ∉ s.boundNames)
    (hacquire : ∀ item ∈ s.items, ∀ x ∈ item.acquire.names,
      ¬c.isReserved x ∧ x ∉ s.boundNames) :
    items.length = s.items.length ∧ c.Apart (s.Declares c) s.items.length items := by
  obtain ⟨i, j, hitems, -⟩ := hparts
  obtain ⟨hlength, -, hlowers⟩ := Item.lowersItem_of_lowerList hitems
  have hreserved := not_isReserved_of_mem_boundNames hstyle hitems
  refine ⟨hlength, fun role j hj => .inl ⟨role, j, hj, rfl⟩, ?_, ?_⟩
  · intro item' hmem' x hx
    obtain ⟨item, hmem, hitem⟩ := hlowers item' hmem'
    rw [hitem.boundNames_eq] at hx
    have hbound : x ∈ s.boundNames := mem_boundNames_iff.mpr ⟨item, hmem, hx⟩
    exact ⟨.inr hbound, hreserved x hbound⟩
  · intro item' hmem' x hx
    obtain ⟨item, hmem, hitem⟩ := hlowers item' hmem'
    rcases hitem.names x hx with hx | hx
    · exact not_declares (hacquire item hmem x hx)
    · exact not_declares_of_introduces hreserved hcalls hx

/-- The lowered body of a statement stays apart from what its expansion
declares. -/
theorem LowersInto.not_declares_of_mem_body
    (hparts : s.LowersInto c inAsync items body) (hstyle : c.conventions.expansion ≠ .native)
    (hcalls : c.conventions.expansion = .protectedCall →
      "pcall" ∉ s.boundNames ∧ "table" ∉ s.boundNames)
    (hbody : ∀ x ∈ Stmt.namesList s.body, ¬c.isReserved x ∧ x ∉ s.boundNames) :
    ∀ x ∈ Stmt.namesList body, ¬s.Declares c x := by
  obtain ⟨i, j, hitems, hlower⟩ := hparts
  obtain ⟨hle, -⟩ := Item.lowerList_covered c inAsync s.items _ _ _ hitems
  obtain ⟨-, hnames⟩ := Stmt.lowerList_covered c inAsync s.body _ _ _ hlower
  intro x hx
  rcases hnames x hx with hx | hx
  · exact not_declares (hbody x hx)
  · exact not_declares_of_introduces (not_isReserved_of_mem_boundNames hstyle hitems) hcalls
      (hx.mono hle)

/-- A state whose functions have captured variables that exist mirrors itself. -/
theorem mirrors_self
    {W : Type} {st : State W} (env : Env) (hstate : st.Closed (s.Declares c)) :
    Mirrors (s.Declares c) (fun _ i => i) env st env st :=
  ⟨.refl _ env, .refl hstate⟩

end Scoped

/-! ## Functions that avoid the names -/

/-- Acquisitions without private names keep private names out of all functions. -/
theorem Runtime.Acquires.avoids
    {rt : Runtime W} {conv : Conventions} {env : Env} {i : Nat} {items : List Item}
    {s s' : State W} {Private : String → Prop} (h : rt.Acquires conv env i items s s')
    (hnames : ∀ item ∈ items, ∀ x ∈ item.acquire.names, ¬Private x)
    (hs : s.Avoids Private) : s'.Avoids Private := by
  induction h with
  | nil => exact hs
  | cons hacquire _ _ ih =>
      obtain ⟨hitem, hitems⟩ := List.forall_mem_cons.mp hnames
      obtain ⟨n, hrun⟩ := hacquire
      have hnext := (Expr.one_results_steps hs (fun x hx => ⟨hitem x hx, rfl⟩) (Nat.le_refl n)
        hrun).2
      exact ih hitems hnext

theorem Ending.move_eq_self
    {r : Ending} {place : Placement} {Private : String → Prop} (hplace : place.MovesOnly Private)
    (hr : ∀ v ∈ r.values, v.Admitted fun x _ => ¬Private x) : r.move place = r := by
  have hmove : ∀ v ∈ r.values, v.move place = v :=
    fun v hv => ((hr v hv).move_congr fun x i hx => hplace x hx i).trans v.move_id
  cases r with
  | error v => rw [move, hmove v (List.mem_singleton.mpr rfl)]
  | ok c =>
      cases c with
      | returned vs =>
          have hvs : vs.map (Value.move place) = vs :=
            (List.map_congr_left hmove).trans (List.map_id' vs)
          rw [move, Completion.move, hvs]
      | normal | broke | continued => rfl

/-- If functions avoid the private names, it does not matter where private variables
stand. -/
theorem Runtime.Acquires.move_ending_runScoped
    {rt : Runtime W} {conv : Conventions} {env : Env} {items : List Item} {body : List Stmt}
    {st st₁ st₂ : State W} {b : Outcome} {results : List Value} {es : List Event}
    {Private : String → Prop} {place : Placement}
    (hacquires : rt.Acquires conv env 0 items st st₁)
    (hbody : rt.Executes env body st₁ ⟨b.ending results, st₂, es⟩)
    (hitems : ∀ item ∈ items, ∀ x ∈ item.acquire.names, ¬Private x)
    (hnames : ∀ x ∈ Stmt.namesList body, ¬Private x) (hplace : place.MovesOnly Private)
    (hst : st.Avoids Private) (resources : List Resource) :
    ((runScoped resources b).outcome.ending results).move place =
      (runScoped resources b).outcome.ending results := by
  obtain ⟨n, hrun⟩ := hbody
  obtain ⟨-, -, hvalues⟩ := Stmt.execList_steps (hacquires.avoids hitems hst)
    (fun x hx => ⟨hnames x hx, rfl⟩) (Nat.le_refl n) hrun
  rw [Trace.runScoped_eq_nest]
  exact Trace.move_ending_nest (t := ⟨[.body], b⟩) (Ending.move_eq_self hplace hvalues) 0 _

/-! ## An example -/

/-- A runtime with the resources `first` and `second`.  Its functions run the body,
and null has no parts. -/
def Runtime.sample
    (conv : Conventions) (resources : List Resource) (entry : Value)
    (hentry : entry.closures = []) : Runtime Unit where
  enterMethod := conv.enterMethod
  exitMethod := conv.exitMethod
  resources := resources
  entryValue _ := ⟨entry, hentry⟩
  exitResults i := [⟨.bool (decide ((resources.getD i .ok).onRelease = .handled)), rfl⟩]
  protectedCalls := decide (conv.expansion = .protectedCall)
  constantError :=
    if conv.expansion = .tryCatchFinally then some ⟨.fault ⟨"TypeError"⟩, rfl⟩ else none
  truthy
    | .null => false
    | .bool b => b
    | _ => true
  query _
    | .variable "first" => .ok ⟨.manager 0, rfl⟩
    | .variable "second" => .ok ⟨.manager 1, rfl⟩
    | .member .null _ => .error ⟨.fault ⟨"TypeError"⟩, rfl⟩
    | _ => .ok ⟨.foreign 0, rfl⟩
  command _ _ := (.ok [], (), [.body])
  elements _ _ := .error ⟨.fault ⟨"TypeError"⟩, rfl⟩
  mismatch length slots := if length = slots then none else some ⟨.fault ⟨"ValueError"⟩, rfl⟩
  truthy_null := rfl
  truthy_bool _ := rfl
  truthy_seen v := by cases v <;> rfl
  truthy_exitResults _ := rfl

/-- A statement that holds both resources, binds `x` and `y`, works and ends with
the given statement. -/
def Scoped.sample (last : Stmt) : Scoped :=
  ⟨[.new (.ident "first"), .bind (.new (.ident "second")) (.ofNames ["x", "y"])],
    [.expr (.call (.ident "work") []), last], false⟩

/-- The state without any variables. -/
def State.empty : State Unit := ⟨fun _ => [], ()⟩

/-- A function that has captured a variable `x` and copies it to a variable `y` of
its own. -/
def Func.helper : Func :=
  ⟨"helper", [], [.letConst "y" (.ident "x"), .ret (some (.ident "y"))], false⟩

/-- The state in which `helper` exists, with the value of its variable `x`. -/
def State.withHelper (v : Value) : State Unit :=
  (State.empty.declare true "x" v).declare true "helper"
    (.closure .helper (Env.set (fun _ => none) "x" 0))

/-- The environment of code that knows `helper` only. -/
def Env.helper : Env := Env.set (fun _ => none) "helper" 0

/-- The helper has captured a variable that exists, whatever names are concerned. -/
theorem State.withHelper_closed
    {v : Value} (hv : v.closures = []) (Q : String → Prop) : (State.withHelper v).Closed Q := by
  have hempty (A : String → Option Nat → Prop) : State.empty.Admitted A := by
    intro x v hv
    exact nomatch hv
  refine ((hempty _).declare (Value.admitted_of_closures_eq_nil hv) true).declare ?_ true
  refine Value.admitted_closure.mpr fun x _ _ i hi => ?_
  by_cases hx : x = "x"
  · subst hx
    cases hi
    rw [State.withHelper, State.declare_vars_of_ne _ _ _ (by decide), State.declare_vars_self]
    exact Nat.zero_lt_one
  · simp [Env.set, hx] at hi

theorem Runtime.evaluates_of_ask
    {W : Type} {rt : Runtime W} {env : Env} {x : String} {s : State W} {v : Value}
    (henv : env x = none) (hpcall : x ≠ "pcall") (htable : x ≠ "table")
    (hx : rt.ask (.variable x) s = some ⟨.ok v, s, []⟩) :
    rt.Evaluates env (.ident x) s ⟨.ok v, s, []⟩ := by
  have hread : rt.readName env x = rt.ask (.variable x) := by
    simp [readName, henv, global, hpcall, htable]
  rw [← hread] at hx
  exact ⟨0, Run.one_of_answer (Expr.results_ident_of_read hx)⟩

theorem Runtime.sample_acquires
    {conv : Conventions} {resources : List Resource} {entry : Value}
    {hentry : entry.closures = []} {env : Env} {st : State Unit} (last : Stmt)
    (hfirst : env "first" = none) (hsecond : env "second" = none)
    (hbinds : ∃ vs, (Runtime.sample conv resources entry hentry).unpack conv ()
      (.ofNames ["x", "y"]) entry = .ok vs) :
    (Runtime.sample conv resources entry hentry).Acquires conv env 0
      (Scoped.sample last).items st st := by
  refine .cons (evaluates_of_ask hfirst (by decide) (by decide) rfl) (fun p hp => nomatch hp)
    (.cons (evaluates_of_ask hsecond (by decide) (by decide) rfl) ?_ .nil)
  rintro p ⟨⟩
  exact hbinds

end Bracket
