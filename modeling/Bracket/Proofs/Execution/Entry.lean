import Bracket.Lowering.Guarded
import Bracket.Proofs.Execution.Steps
import Bracket.Proofs.Lowering.Names

/-!
# Entering a resource

What the statements do that an expansion puts around the held code: they keep the
resource in a variable, enter it, bind its entry value, and leave it again.  They
change variables of the resource's own generated names and of bound names only.
-/

namespace Bracket

variable {W : Type} {rt : Runtime W} {eng : Engine W} {env : Env} {s s' : State W}

/-! ## Binding -/

/-- In front of any code, statements bind names of `Q` or throw, as a result
says. -/
def Stmt.Binds
    (rt : Runtime W) (Q : String → Prop) (env : Env) (s : State W)
    (code : List Stmt) : Except Value (List Value) → Prop
  | .ok _ => ∃ env' s', env.SameOff Q env' ∧ s.Adds Q s' ∧
      ∀ eng rest, Stmt.execList rt eng env (code ++ rest) s = Stmt.execList rt eng env' rest s'
  | .error v => ∃ s', s.Adds Q s' ∧
      ∀ eng rest, Stmt.execList rt eng env (code ++ rest) s = some ⟨.error v, s', []⟩

/-- An expression has a result without any effect, whatever names of `Q` mean. -/
def Expr.Reads
    (rt : Runtime W) (Q : String → Prop) (env : Env) (s : State W)
    (e : Expr) (r : Except Value Value) : Prop :=
  ∀ {env' s'} eng, env.SameOff Q env' → s.Adds Q s' →
    (e.results rt eng env').one s' = some ⟨r, s', []⟩

section Binding

variable {Q : String → Prop}

theorem Expr.Reads.of_sameOff
    {env' : Env} {e : Expr} {r : Except Value Value}
    (h : e.Reads rt Q env s r) (henv : env.SameOff Q env') (hs : s.Adds Q s') :
    e.Reads rt Q env' s' r :=
  fun eng henv' hs' => h eng (henv.trans henv') (hs.trans hs')

theorem Env.Holds.reads
    {x : String} {v : Value} (h : env.Holds s x v) (hx : ¬Q x) :
    (Expr.ident x).Reads rt Q env s (.ok v) :=
  fun _ henv hs => Run.one_of_answer ((h.of_adds (henv x hx) hs).results_ident rt _)

/-- An element of what an expression reads. -/
theorem Expr.Reads.index
    {e : Expr} {r : Except Value Value} (h : e.Reads rt Q env s r) (d : Double) :
    (Expr.index e (.number d)).Reads rt Q env s
      (do
        let v ← r
        rt.memberOf s.world v (.number d)) := by
  intro env' s' eng henv hs
  have he := h eng henv hs
  rw [Expr.index, Expr.number, Expr.results, ← hs.world]
  cases r with
  | error v => exact Run.one_of_error (Run.bind_of_error _ he)
  | ok v =>
      have hpos : ((Expr.literal (.number d)).results rt eng env').one s' =
          some ⟨.ok (.number d), s', []⟩ := Run.one_of_answer (Run.pure_apply _ s')
      have hmember : rt.member v (.number d) s' =
          some ⟨rt.memberOf s'.world v (.number d), s', []⟩ := rfl
      rw [Run.one, Run.bind_apply, Run.bind_of_silent _ he, Run.bind_of_silent _ hpos,
        Run.bind_apply, hmember]
      change _ = some (Answer.mk (rt.memberOf s'.world v (.number d)) s' [])
      cases rt.memberOf s'.world v (.number d) <;> rfl

theorem Run.declareAll_adds
    {xs : List String} (hxs : ∀ x ∈ xs, Q x) (vs : List Value) (s : State W) :
    ∃ ds s', Run.declareAll xs vs s = some ⟨.ok ds, s', []⟩ ∧
      (∀ d ∈ ds, Q d.1) ∧ s.Adds Q s' := by
  induction xs generalizing vs s with
  | nil => exact ⟨[], s, rfl, by simp, .refl Q s⟩
  | cons x xs ih =>
      have hx : Q x := hxs x List.mem_cons_self
      obtain ⟨ds, s₁, hrun, hds, hs₁⟩ := ih (fun y hy => hxs y (List.mem_cons_of_mem x hy))
        vs.tail (s.declare true x (Value.first vs))
      refine ⟨(x, (s.vars x).length) :: ds, s₁, ?_, ?_, (State.Adds.declare hx true _).trans hs₁⟩
      · rw [Run.declareAll, Run.bind_of_silent _ (Run.declare_apply _ _ _ s),
          Run.bind_of_silent _ hrun, Run.pure_apply]
      · intro d hd
        rcases List.mem_cons.mp hd with rfl | hd
        · exact hx
        · exact hds d hd

namespace Stmt.Binds

theorem nil : Stmt.Binds rt Q env s [] (.ok []) :=
  ⟨env, s, .refl Q env, .refl Q s, fun _ _ => rfl⟩

theorem append
    {code code' : List Stmt} {r r' : Except Value (List Value)}
    (h : Stmt.Binds rt Q env s code r)
    (h' : ∀ {env' s'}, env.SameOff Q env' → s.Adds Q s' →
      Stmt.Binds rt Q env' s' code' r') :
    Stmt.Binds rt Q env s (code ++ code')
      (do
        let us ← r
        let us' ← r'
        .ok (us ++ us')) := by
  cases r with
  | error v =>
      obtain ⟨s₁, hs₁, hrun⟩ := h
      exact ⟨s₁, hs₁, fun eng rest => by rw [List.append_assoc, hrun]⟩
  | ok us =>
      obtain ⟨env₁, s₁, henv₁, hs₁, hrun⟩ := h
      have hnext := h' henv₁ hs₁
      cases r' with
      | error v =>
          obtain ⟨s₂, hs₂, hrun'⟩ := hnext
          exact ⟨s₂, hs₁.trans hs₂, fun eng rest => by rw [List.append_assoc, hrun, hrun']⟩
      | ok us' =>
          obtain ⟨env₂, s₂, henv₂, hs₂, hrun'⟩ := hnext
          exact ⟨env₂, s₂, henv₁.trans henv₂, hs₁.trans hs₂,
            fun eng rest => by rw [List.append_assoc, hrun, hrun']⟩

theorem declare
    {x : String} {e : Expr} {r : Except Value Value} (hx : Q x)
    (h : e.Reads rt Q env s r) :
    Stmt.Binds rt Q env s [.letVar x (some e)]
      (do
        let v ← r
        .ok [v]) := by
  have he := fun eng => h eng (.refl Q env) (.refl Q s)
  cases r with
  | error v =>
      exact ⟨s, .refl Q s,
        fun eng rest =>
          Stmt.execList_cons_of_error rest (Stmt.exec_declare_of_error true (he eng))⟩
  | ok v =>
      exact ⟨env.set x (s.vars x).length, s.declare true x v, .set hx _, .declare hx true v,
        fun eng rest =>
          Stmt.execList_cons_of_silent rest (Stmt.exec_declare_of_ok true (he eng))⟩

/-- A pattern takes a value apart directly. -/
theorem destructure
    {p : Pattern} {e : Expr} {v : Value} (hnames : ∀ x ∈ p.names, Q x)
    (h : e.Reads rt Q env s (.ok v)) :
    Stmt.Binds rt Q env s [.destructure p e] (rt.takeApart s.world p v) := by
  have he := fun eng => h eng (.refl Q env) (.refl Q s)
  let take : Run W (List Value) := .act fun w => ⟨rt.takeApart w p v, w, []⟩
  have htake : take s = some ⟨rt.takeApart s.world p v, s, []⟩ := rfl
  cases hr : rt.takeApart s.world p v with
  | error u =>
      rw [hr] at htake
      refine ⟨s, .refl Q s, fun eng rest => Stmt.execList_cons_of_error rest ?_⟩
      rw [Stmt.exec, Run.bind_of_silent _ (he eng), Run.bind_of_error _ htake]
  | ok vs =>
      rw [hr] at htake
      obtain ⟨ds, s₁, hrun, hds, hs₁⟩ := Run.declareAll_adds hnames vs s
      refine ⟨env.extend ds, s₁, .extend hds, hs₁,
        fun eng rest => Stmt.execList_cons_of_silent rest ?_⟩
      rw [Stmt.exec, Run.bind_of_silent _ (he eng), Run.bind_of_silent _ htake,
        Run.bind_of_silent _ hrun, Run.pure_apply]

end Stmt.Binds

mutual

/-- The declarations of a pattern bind as reading by positions says. -/
theorem Pattern.binds_indexedBindings
    (base : UInt64) (env : Env) (s : State W) :
    (p : Pattern) → (e : Expr) → (r : Except Value Value) → (∀ x ∈ p.names, Q x) →
      e.Reads rt Q env s r →
      Stmt.Binds rt Q env s (p.indexedBindings base e) (rt.readApart s.world base r p)
  | .name x, e, r, hnames, h => by
      rw [Pattern.indexedBindings, Runtime.readApart]
      exact .declare (hnames x (by simp [Pattern.names])) h
  | .tuple ps, e, r, hnames, h => by
      rw [Pattern.indexedBindings, Runtime.readApart]
      rw [Pattern.names] at hnames
      exact Pattern.binds_indexedSlots base env s ps e r 0 hnames h

theorem Pattern.binds_indexedSlots
    (base : UInt64) (env : Env) (s : State W) :
    (ps : List Pattern) → (e : Expr) → (r : Except Value Value) → (i : Nat) →
      (∀ x ∈ Pattern.namesList ps, Q x) → e.Reads rt Q env s r →
      Stmt.Binds rt Q env s (Pattern.indexedSlots base e i ps)
        (rt.readSlots s.world base r i ps)
  | [], e, r, i, hnames, h => by
      rw [Pattern.indexedSlots, Runtime.readSlots]
      exact .nil
  | p :: ps, e, r, i, hnames, h => by
      rw [Pattern.indexedSlots, Runtime.readSlots]
      rw [Pattern.namesList] at hnames
      apply Stmt.Binds.append
      · exact Pattern.binds_indexedBindings base env s p _ _
          (fun x hx => hnames x (List.mem_append_left _ hx)) (h.index _)
      · intro env' s' henv hs
        have hrest := Pattern.binds_indexedSlots base env' s' ps e r (i + 1)
          (fun x hx => hnames x (List.mem_append_right _ hx)) (h.of_sameOff henv hs)
        rwa [hs.world] at hrest

end

/-- The statements that bind an entry value bind as unpacking says. -/
theorem Context.binds_bindEntryValue
    (rt : Runtime W) {c : Context} {n : Nat} {p : Pattern} {v : Value}
    (hnames : ∀ x ∈ p.names, Q x) (hvalue : env.Holds s (c.temp .value n) v)
    (htemp : ¬Q (c.temp .value n)) :
    Stmt.Binds rt Q env s (c.bindEntryValue n (some p))
      (rt.unpack c.conventions s.world p v) := by
  have hreads : (Expr.ident (c.temp .value n)).Reads rt Q env s (.ok v) :=
    hvalue.reads htemp
  cases p with
  | name x =>
      have hunpack : rt.unpack c.conventions s.world (.name x) v = .ok [v] := by
        simp [Runtime.unpack, Runtime.takeApart, Runtime.readApart, bind, Except.bind]
      rw [Context.bindEntryValue, hunpack]
      exact .declare (hnames x (by simp [Pattern.names])) hreads
  | tuple ps =>
      rw [Context.bindEntryValue, Runtime.unpack]
      · by_cases hnative : c.conventions.nativeUnpacking
        · rw [if_pos hnative, if_pos hnative]
          exact .destructure hnames hreads
        · rw [if_neg hnative, if_neg hnative]
          exact Pattern.binds_indexedBindings _ env s _ _ _ hnames hreads
      · rintro x ⟨⟩

end Binding

/-! ## Entering and leaving -/

theorem Expr.results_suspendIf
    (isAsync : Bool) (e : Expr) :
    (e.suspendIf isAsync).results rt eng env = e.results rt eng env := by
  cases isAsync
  · rfl
  · rw [Expr.suspendIf, if_pos rfl, Expr.results]

/-- Methods of the runtime are those of the conventions, and entering can be told
from leaving. -/
structure Runtime.Follows (rt : Runtime W) (conv : Conventions) : Prop where
  enter : rt.enterMethod = conv.enterMethod
  exit : rt.exitMethod = conv.exitMethod
  distinct : conv.enterMethod ≠ conv.exitMethod

theorem Runtime.adjust_singleton (v : Value) : rt.adjust [v] = [v] := by
  unfold Runtime.adjust
  split <;> rfl

theorem Runtime.first_adjust (vs : List Value) : Value.first (rt.adjust vs) = Value.first vs := by
  unfold Runtime.adjust
  split <;> rfl

/-- An exit answers with a true value exactly if it handles errors. -/
theorem Runtime.truthy_exit
    (n : Nat) :
    rt.truthy (Value.first (rt.adjust ((rt.exitResults n).map Subtype.val))) =
      decide ((rt.resource n).onRelease = .handled) := by
  rw [Runtime.first_adjust]
  exact rt.truthy_exitResults n

namespace Context

variable {c : Context} {n : Nat}

theorem results_enterCall
    (hrt : rt.Follows c.conventions) (hm : env.Holds s (c.temp .manager n) (.manager n)) :
    (c.enterCall n).results rt eng env s =
      some ⟨match (rt.resource n).acquireFails with
        | some e => .error (.fault e)
        | none => .ok [(rt.entryValue n).1], s, [.acquire n]⟩ := by
  have hinvoke : rt.invoke eng (.manager n) c.conventions.enterMethod [] = rt.enter n := by
    rw [Runtime.invoke, if_pos hrt.enter.symm]
  rw [enterCall, Expr.results, Run.bind_of_silent _ (Run.one_of_answer (hm.results_ident rt eng)),
    Expr.resultsList, Run.bind_of_silent _ (Run.pure_apply _ s), Value.first_cons, hinvoke]
  cases hfails : (rt.resource n).acquireFails with
  | some e =>
      have henter : rt.enter n s = some ⟨.error (.fault e), s, [.acquire n]⟩ := by
        simp [Runtime.enter, hfails]
      rw [Run.bind_of_error _ henter]
  | none =>
      have henter : rt.enter n s = some ⟨.ok [(rt.entryValue n).1], s, [.acquire n]⟩ := by
        simp [Runtime.enter, hfails]
      rw [Run.bind_of_ok _ henter, Run.pure_apply, Runtime.adjust_singleton]
      rfl

theorem results_exitCall
    {argument : Expr} {v : Value} (isAsync : Bool)
    (hrt : rt.Follows c.conventions) (hm : env.Holds s (c.temp .manager n) (.manager n))
    (harg : argument.results rt eng env s = some ⟨.ok [v], s, []⟩) :
    (Expr.suspendIf isAsync (c.exitCall n argument)).results rt eng env s =
      some ⟨match (rt.resource n).onRelease with
        | .replace e => .error (.fault e)
        | _ => .ok (rt.adjust ((rt.exitResults n).map Subtype.val)), s,
          [.release n v.asFault]⟩ := by
  have hinvoke : rt.invoke eng (.manager n) c.conventions.exitMethod [v] = rt.leave n v := by
    rw [Runtime.invoke, if_neg, if_pos hrt.exit.symm, Value.first_cons]
    rw [hrt.enter]
    exact hrt.distinct.symm
  rw [Expr.results_suspendIf, exitCall, Expr.results,
    Run.bind_of_silent _ (Run.one_of_answer (hm.results_ident rt eng)),
    Expr.resultsList_singleton, Run.bind_of_silent _ harg, Value.first_cons, hinvoke,
    Run.bind_apply, Runtime.leave, Run.act_apply]
  cases (rt.resource n).onRelease <;> rfl

/-- Leaving a resource for its own sake. -/
theorem exec_exitCall
    {argument : Expr} {v : Value} (isAsync : Bool)
    (hrt : rt.Follows c.conventions) (hm : env.Holds s (c.temp .manager n) (.manager n))
    (harg : argument.results rt eng env s = some ⟨.ok [v], s, []⟩) :
    (Stmt.expr (.suspendIf isAsync (c.exitCall n argument))).exec rt eng env s =
      some ⟨match (rt.resource n).onRelease with
        | .replace e => .error (.fault e)
        | _ => .ok (.normal, []), s, [.release n v.asFault]⟩ := by
  have hexit := results_exitCall isAsync hrt hm harg
  cases hsignal : (rt.resource n).onRelease with
  | replace e => exact Stmt.exec_expr_of_error (by rw [hexit, hsignal])
  | handled => exact Stmt.exec_expr_of_ok (by rw [hexit, hsignal])
  | propagate => exact Stmt.exec_expr_of_ok (by rw [hexit, hsignal])

/-- Leaving a resource and asking whether it let the error pass. -/
theorem one_results_negate_exitCall
    {argument : Expr} {v : Value} (isAsync : Bool)
    (hrt : rt.Follows c.conventions) (hm : env.Holds s (c.temp .manager n) (.manager n))
    (harg : argument.results rt eng env s = some ⟨.ok [v], s, []⟩) :
    ((Expr.negate (.suspendIf isAsync (c.exitCall n argument))).results rt eng env).one s =
      some ⟨match (rt.resource n).onRelease with
        | .replace e => .error (.fault e)
        | .handled => .ok (.bool false)
        | .propagate => .ok (.bool true), s, [.release n v.asFault]⟩ := by
  have hexit := results_exitCall isAsync hrt hm harg
  have htruthy := rt.truthy_exit n
  cases hsignal : (rt.resource n).onRelease with
  | replace e =>
      rw [hsignal] at hexit
      exact Expr.one_results_negate_of_error (Run.one_of_error hexit)
  | handled =>
      rw [hsignal] at hexit htruthy
      rw [Expr.one_results_negate (Run.one_of_answer hexit), htruthy]
      rfl
  | propagate =>
      rw [hsignal] at hexit htruthy
      rw [Expr.one_results_negate (Run.one_of_answer hexit), htruthy]
      rfl

/-- The name is generated for resource `n`. -/
def Owns (c : Context) (n : Nat) (x : String) : Prop := ∃ role, x = c.temp role n

/-- What holds after resource `n` has been entered: its variables are new and have
their values. -/
structure Entered
    (c : Context) (rt : Runtime W) (n : Nat) (item : Item) (env env' : Env) (s s' : State W) :
    Prop where
  env : env.SameOff (c.Owns n) env'
  state : s.Adds (c.Owns n) s'
  manager : env'.HoldsNew s s' (c.temp .manager n) (.manager n)
  value : ∀ p, item.binding = some p → env'.Holds s' (c.temp .value n) (rt.entryValue n).1

/-- The name of the resource holds it, after the first statement of the
expansion. -/
theorem execList_letConst_manager
    (c : Context) (rt : Runtime W) (n : Nat) (item : Item) (env : Env) (s₁ : State W) :
    ∃ env' s', env.SameOff (c.Owns n) env' ∧ s₁.Adds (c.Owns n) s' ∧
      env'.HoldsNew s₁ s' (c.temp .manager n) (.manager n) ∧
      ∀ {eng s} rest,
        (item.acquire.results rt eng env).one s = some ⟨.ok (.manager n), s₁, []⟩ →
        Stmt.execList rt eng env (.letConst (c.temp .manager n) item.acquire :: rest) s =
          Stmt.execList rt eng env' rest s' := by
  refine ⟨_, _, .set ⟨.manager, rfl⟩ _, .declare ⟨.manager, rfl⟩ false _,
    .declare env s₁ false _ _, ?_⟩
  intro eng s rest hacquire
  exact Stmt.execList_cons_of_silent rest (Stmt.exec_declare_of_ok false hacquire)

/-- Entering a resource goes on to the code behind. -/
theorem execList_enterStatements
    (isAsync : Bool) (item : Item) (env : Env) (s₁ : State W)
    (hrt : rt.Follows c.conventions) (hfails : (rt.resource n).acquireFails = none) :
    ∃ env' s', c.Entered rt n item env env' s₁ s' ∧
      ∀ {eng s} rest,
        (item.acquire.results rt eng env).one s = some ⟨.ok (.manager n), s₁, []⟩ →
        Stmt.execList rt eng env
            (c.enterStatements n item (.suspendIf isAsync (c.enterCall n)) ++ rest) s =
          (Stmt.execList rt eng env' rest s').map (Answer.after [.acquire n]) := by
  obtain ⟨env₁, s₂, henv₁, hs₂, hm, hrun⟩ := execList_letConst_manager c rt n item env s₁
  have henter (eng : Engine W) : ((c.enterCall n).suspendIf isAsync).results rt eng env₁ s₂ =
      some ⟨.ok [(rt.entryValue n).1], s₂, [.acquire n]⟩ := by
    rw [Expr.results_suspendIf, results_enterCall hrt hm.holds, hfails]
  cases hbinding : item.binding with
  | none =>
      refine ⟨env₁, s₂, ⟨henv₁, hs₂, hm, by simp [hbinding]⟩, ?_⟩
      intro eng s rest hacquire
      rw [enterStatements, hbinding]
      exact (hrun _ hacquire).trans
        (Stmt.execList_cons_of_normal rest (Stmt.exec_expr_of_ok (henter eng)))
  | some p =>
      have hown : c.Owns n (c.temp .value n) := ⟨.value, rfl⟩
      refine ⟨_, _, ⟨henv₁.trans (.set hown _), hs₂.trans (.declare hown false _), ?_,
        fun _ _ => .declare env₁ s₂ false _ _⟩, ?_⟩
      · have hne : c.temp .manager n ≠ c.temp .value n := c.temp_ne_of_role_ne n n (by decide)
        exact hm.of_adds (Env.set_of_ne _ _ hne) (.declare hown false _)
      · intro eng s rest hacquire
        rw [enterStatements, hbinding]
        exact (hrun _ hacquire).trans (Stmt.execList_cons_of_normal rest
          (Stmt.exec_declare_of_ok false (Run.one_of_answer (henter eng))))

/-- A resource that cannot be acquired throws at once. -/
theorem execList_enterStatements_of_fails
    {e : Fault} (isAsync : Bool) (item : Item) (env : Env) (s₁ : State W)
    (hrt : rt.Follows c.conventions) (hfails : (rt.resource n).acquireFails = some e) :
    ∃ s', s₁.Adds (c.Owns n) s' ∧
      ∀ {eng s} rest,
        (item.acquire.results rt eng env).one s = some ⟨.ok (.manager n), s₁, []⟩ →
        Stmt.execList rt eng env
            (c.enterStatements n item (.suspendIf isAsync (c.enterCall n)) ++ rest) s =
          some ⟨.error (.fault e), s', [.acquire n]⟩ := by
  obtain ⟨env₁, s₂, henv₁, hs₂, hm, hrun⟩ := execList_letConst_manager c rt n item env s₁
  refine ⟨s₂, hs₂, ?_⟩
  intro eng s rest hacquire
  have henter : ((c.enterCall n).suspendIf isAsync).results rt eng env₁ s₂ =
      some ⟨.error (.fault e), s₂, [.acquire n]⟩ := by
    rw [Expr.results_suspendIf, results_enterCall hrt hm.holds, hfails]
  rw [enterStatements]
  refine (hrun _ hacquire).trans (Stmt.execList_cons_of_error rest ?_)
  split
  · exact Stmt.exec_expr_of_error henter
  · exact Stmt.exec_declare_of_error false (Run.one_of_error henter)

end Context

end Bracket
