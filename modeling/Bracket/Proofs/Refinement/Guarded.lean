import Bracket.Proofs.Refinement.Separation

/-!
# The guarded region holds its resource

The expansion with catch and finally releases a resource exactly once on every
way out, shows it the exception that propagates, and ends as the release says.
-/

namespace Bracket

variable {W : Type} {rt : Runtime W} {env : Env} {s s' : State W}

/-! ## Guarded runs -/

namespace Run

variable {region cleanup : Run W Completion} {handler : Value → Run W Completion}
  {s₁ s₂ s₃ : State W} {es₁ es₂ es₃ : List Event}

/-- The ending of a guarded region after its cleanup. -/
def afterCleanup (r : Ending) : Ending → Ending
  | .ok .normal => r
  | r' => r'

theorem guarded_of_ok
    {c : Completion} {r : Ending}
    (hregion : region s = some ⟨.ok c, s₁, es₁⟩) (hcleanup : cleanup s₁ = some ⟨r, s₂, es₂⟩) :
    guarded region handler cleanup s = some ⟨afterCleanup (.ok c) r, s₂, es₁ ++ es₂⟩ := by
  rw [guarded, bind_of_ok _ (attempt_of_answer hregion), recover,
    bind_of_silent _ (pure_apply _ s₁)]
  cases r with
  | error v =>
      rw [bind_of_error _ hcleanup]
      rfl
  | ok d =>
      rw [bind_of_ok _ hcleanup]
      cases d <;> simp [afterCleanup, ofExcept]

theorem guarded_of_error
    {v : Value} {r r' : Ending}
    (hregion : region s = some ⟨.error v, s₁, es₁⟩)
    (hhandler : handler v s₁ = some ⟨r, s₂, es₂⟩) (hcleanup : cleanup s₂ = some ⟨r', s₃, es₃⟩) :
    guarded region handler cleanup s =
      some ⟨afterCleanup r r', s₃, es₁ ++ (es₂ ++ es₃)⟩ := by
  rw [guarded, bind_of_ok _ (attempt_of_answer hregion), recover,
    bind_of_ok _ (attempt_of_answer hhandler)]
  cases r' with
  | error u =>
      rw [bind_of_error _ hcleanup]
      rfl
  | ok d =>
      rw [bind_of_ok _ hcleanup]
      cases r <;> cases d <;> simp [afterCleanup, ofExcept]

end Run

namespace Context

variable {c : Context} {n : Nat} (eng : Engine W) (isAsync : Bool)

/-! ## The clauses -/

/-- The finally clause does nothing after a failure. -/
theorem exec_onLeave_of_failed
    (rt : Runtime W) (eng : Engine W) (isAsync : Bool)
    (hfailed : env.Holds s (c.temp .failed n) (.bool true)) :
    (c.onLeave isAsync n).exec rt eng env s = some ⟨.ok (.normal, []), s, []⟩ := by
  have htest := Expr.one_results_negate (Run.one_of_answer (hfailed.results_ident rt eng))
  have hskip : Stmt.execOption rt eng env none s = some ⟨.ok (.normal, []), s, []⟩ := rfl
  exact Stmt.exec_block (Stmt.execList_singleton
    (Stmt.exec_ifElse_of_false _ htest (by simp [rt.truthy_bool]) hskip))

/-- The finally clause releases the resource unless there was a failure. -/
theorem exec_onLeave
    (hrt : rt.Follows c.conventions)
    (hfailed : env.Holds s (c.temp .failed n) (.bool false))
    (hm : env.Holds s (c.temp .manager n) (.manager n)) :
    (c.onLeave isAsync n).exec rt eng env s =
      some ⟨match (rt.resource n).onRelease with
        | .replace e => .error (.fault e)
        | _ => .ok (.normal, []), s, [.release n none]⟩ := by
  have htest := Expr.one_results_negate (Run.one_of_answer (hfailed.results_ident rt eng))
  have hnull : Expr.null.results rt eng env s = some ⟨.ok [.null], s, []⟩ := by
    rw [Expr.null, Expr.results]
    rfl
  have hif := Stmt.exec_ifElse_of_true none htest (by simp [rt.truthy_bool])
    (Stmt.exec_block (Stmt.execList_singleton (exec_exitCall isAsync hrt hm hnull)))
  refine (Stmt.exec_block (Stmt.execList_singleton hif)).trans ?_
  cases (rt.resource n).onRelease <;> rfl

/-- The catch clause notes the failure, releases the resource with the error and
throws the error again unless the release handles it. -/
theorem exec_onError
    {v failed : Value} {i : Nat} (hrt : rt.Follows c.conventions)
    (herror : env.Holds s (c.temp .error n) v)
    (hfailed : env.Assignable s (c.temp .failed n) i failed)
    (hm : env.Holds s (c.temp .manager n) (.manager n)) :
    (c.onError isAsync n).exec rt eng env s =
      some ⟨(Ending.afterRelease (.error v) (rt.resource n).onRelease).map fun d => (d, []),
        s.assign (c.temp .failed n) i (.bool true), [.release n v.asFault]⟩ := by
  have htrue : ((Expr.bool true).results rt eng env).one s = some ⟨.ok (.bool true), s, []⟩ := by
    rw [Expr.bool, Expr.results]
    exact Run.one_of_answer (Run.pure_apply _ s)
  have hassign := hfailed.results_assign htrue
  have hne {role : Role} (h : role ≠ .failed) : c.temp role n ≠ c.temp .failed n :=
    c.temp_ne_of_role_ne n n h
  have herror₁ := (herror.after_assign (hne (by decide)) i (.bool true)).results_ident rt eng
  have hm₁ := hm.after_assign (hne (by decide)) i (.bool true)
  have htest := one_results_negate_exitCall isAsync hrt hm₁ herror₁
  have hthrow := Stmt.exec_block
    (Stmt.execList_singleton (Stmt.exec_throw (Run.one_of_answer herror₁)))
  have hskip : Stmt.execOption rt eng env none (s.assign (c.temp .failed n) i (.bool true)) =
      some ⟨.ok (.normal, []), s.assign (c.temp .failed n) i (.bool true), []⟩ := rfl
  refine Stmt.exec_block ((Stmt.execList_cons_of_silent _ (Stmt.exec_expr_of_ok hassign)).trans ?_)
  cases hsignal : (rt.resource n).onRelease with
  | replace e =>
      rw [hsignal] at htest
      exact Stmt.execList_singleton (Stmt.exec_ifElse_of_error _ none htest)
  | handled =>
      rw [hsignal] at htest
      exact Stmt.execList_singleton
        (Stmt.exec_ifElse_of_false _ htest (rt.truthy_bool false) hskip)
  | propagate =>
      rw [hsignal] at htest
      exact Stmt.execList_singleton
        (Stmt.exec_ifElse_of_true none htest (rt.truthy_bool true) hthrow)

theorem handle_onError
    {failed : Value} {i : Nat} (hrt : rt.Follows c.conventions) (v : Value)
    (hfailed : env.Assignable s (c.temp .failed n) i failed)
    (hm : env.Holds s (c.temp .manager n) (.manager n)) :
    Stmt.handle rt eng env (some (c.temp .error n)) (some (c.onError isAsync n)) v s =
      some ⟨Ending.afterRelease (.error v) (rt.resource n).onRelease,
        (s.declare true (c.temp .error n) v).assign (c.temp .failed n) i (.bool true),
        [.release n v.asFault]⟩ := by
  have hne {role : Role} (h : role ≠ .error) : c.temp role n ≠ c.temp .error n :=
    c.temp_ne_of_role_ne n n h
  have hrun := exec_onError eng isAsync hrt (.declare env s true _ v)
    (hfailed.after_declare (hne (by decide)) true v) (hm.after_declare (hne (by decide)) true v)
  rw [Stmt.handle, Run.bind_of_silent _ (Run.declare_apply true _ v s)]
  refine (Run.completion_of_answer hrun).trans ?_
  cases (rt.resource n).onRelease <;> rfl

/-! ## The region -/

/-- After a guarded region the resource has been released once, and the ending is
that of the region after the release. -/
theorem execList_guardedRegion
    {region : List Stmt} {r : Ending} {es : List Event} {failed : String} {i : Nat}
    (hname : failed = c.temp .failed n) (hi : i = (s.vars failed).length)
    (hrt : rt.Follows c.conventions)
    (hregion : Stmt.execList rt eng (env.set failed i) region
      (s.declare true failed (.bool false)) = some ⟨r, s', es⟩)
    (hm : (env.set failed i).Holds s' (c.temp .manager n) (.manager n))
    (hfailed : (env.set failed i).Assignable s' failed i (.bool false)) :
    ∃ s'', s.SameUpTo s' s'' ∧
      Stmt.execList rt eng env
        [.letVar failed (some (.bool false)),
          .tryCatch (.block region) (some (c.temp .error n)) (some (c.onError isAsync n))
            (some (c.onLeave isAsync n))] s =
        some ⟨r.afterRelease (rt.resource n).onRelease, s'', es ++ [.release n r.shown]⟩ := by
  subst hname hi
  have hfalse : ((Expr.bool false).results rt eng env).one s =
      some ⟨.ok (.bool false), s, []⟩ := by
    rw [Expr.bool, Expr.results]
    exact Run.one_of_answer (Run.pure_apply _ s)
  have hgrows : s.Grows s' :=
    (State.Grows.declare s true _ _).trans ((Stmt.execList rt eng _ region).grows hregion)
  have hblock := Run.completion_of_answer (Stmt.exec_block hregion)
  rw [Stmt.letVar, Stmt.execList_cons_of_silent _ (Stmt.exec_declare_of_ok true hfalse)]
  cases r with
  | ok d =>
      have hleave := Run.completion_of_answer (exec_onLeave eng isAsync hrt hfailed.holds hm)
      refine ⟨s', .refl s s', Stmt.execList_tryCatch ?_⟩
      refine (Run.guarded_of_ok hblock hleave).trans ?_
      cases (rt.resource n).onRelease <;> rfl
  | error v =>
      have hne : c.temp .failed n ≠ c.temp .error n := c.temp_ne_of_role_ne n n (by decide)
      have hhandle := handle_onError eng isAsync hrt v hfailed hm
      have hnoted : (env.set (c.temp .failed n) (s.vars (c.temp .failed n)).length).Assignable
          ((s'.declare true (c.temp .error n) v).assign (c.temp .failed n)
            (s.vars (c.temp .failed n)).length (.bool true)) (c.temp .failed n)
          (s.vars (c.temp .failed n)).length (.bool true) :=
        .assign ⟨hfailed.env, by rw [State.declare_vars_of_ne _ _ _ hne, hfailed.vars]⟩ _
      have hleave := Run.completion_of_answer
        (exec_onLeave_of_failed rt eng isAsync hnoted.holds)
      have hsame : s.SameUpTo s' (s'.declare true (c.temp .error n) v) :=
        .of_adds hgrows (.declare (Q := (· = c.temp .error n)) rfl true v)
      exact ⟨_, hsame.trans (.assign (Nat.le_refl _) _),
        Stmt.execList_tryCatch (Run.guarded_of_error hblock hhandle hleave)⟩

/-! ## Nested regions -/

variable {Private : String → Prop} {inner : State W → Answer W Completion → Prop}
  {place : Placement} {k m : Nat} {item : Item} {items : List Item} {body code : List Stmt}
  {r : Ending} {es : List Event} {env' : Env} {S : State W}

/-- The expansion of one resource around a region whose run is known, the binding
of the entry value included. -/
theorem Apart.run_guarded
    (hapart : c.Apart Private m (item :: items)) (hk : k < m)
    (hrt : rt.Follows c.conventions) (hmirrors : Mirrors Private place env s env' S)
    (hacquire : rt.Evaluates env item.acquire s ⟨.ok (.manager k), s', []⟩)
    (hfails : (rt.resource k).acquireFails = none)
    (hregion : ∀ {place₁ env₁ S₁}, Mirrors Private place₁ env s' env₁ S₁ →
      (∀ p, item.binding = some p → env₁.Holds S₁ (c.temp .value k) (rt.entryValue k).1) →
      RunsAmong rt Private place₁ s' env₁ S₁ (c.bindEntryValue k item.binding ++ code) r es) :
    RunsAmong rt Private place s env' S (c.expandGuarded isAsync k item code)
      (r.afterRelease (rt.resource k).onRelease) (.acquire k :: es ++ [.release k r.shown]) := by
  obtain ⟨n, place₁, env₁, S₁, hmirrors₁, hkeeps₁, hgrows, hm, hvalue, henter⟩ :=
    hapart.run_enter hk hrt isAsync hmirrors hacquire hfails
  have howns : c.Owns k (c.temp .failed k) := ⟨.failed, rfl⟩
  have hne {role : Role} (h : role ≠ .failed) : c.temp role k ≠ c.temp .failed k :=
    c.temp_ne_of_role_ne k k h
  have hadds : S₁.Adds (c.Owns k) (S₁.declare true (c.temp .failed k) (.bool false)) :=
    .declare howns true _
  obtain ⟨n', place₂, S₂, hrun, hplace₂, hspares⟩ := hregion
    (hmirrors₁.adds (.set howns _) hadds (hapart.owns hk))
    fun p hp => (hvalue p hp).after_declare (hne (by decide)) true (.bool false)
  -- The resource and its flag are variables of the expansion, so the region keeps them.
  have hset : env₁.set (c.temp .failed k) (S₁.vars (c.temp .failed k)).length
      (c.temp .manager k) = env₁ (c.temp .manager k) := Env.set_of_ne env₁ _ (hne (by decide))
  have hm₂ := (hm.of_adds hset hadds).of_spares hspares
  have hown : s'.Private place₁ (S₁.declare true (c.temp .failed k) (.bool false))
      (c.temp .failed k) (S₁.vars (c.temp .failed k)).length :=
    hmirrors₁.placed.private_of_length_le (Nat.le_refl _) (by simp)
  have hfailed₂ : (env₁.set (c.temp .failed k) (S₁.vars (c.temp .failed k)).length).Assignable S₂
      (c.temp .failed k) (S₁.vars (c.temp .failed k)).length (.bool false) :=
    ⟨Env.set_self .., (hspares _ _ hown).trans (Env.Assignable.declare env₁ S₁ _ _).vars⟩
  obtain ⟨S₃, hsame, hguarded⟩ := execList_guardedRegion (rt.engine (max n n')) isAsync rfl rfl
    hrt (Stmt.execList_mono (Nat.le_max_right n n') hrun) hm₂ hfailed₂
  refine ⟨max n n', place₂, S₃, ?_, hplace₂, ?_⟩
  · rw [expandGuarded, henter _ (Nat.le_max_left n n'), hguarded, Ending.move_afterRelease,
      Ending.shown_move]
    simp
  · exact ((hkeeps₁.trans (.of_adds hadds)).trans_spares hspares).trans_sameUpTo
      (hsame.mono hgrows)

theorem expandItems_cons_guarded
    (hstyle : c.conventions.expansion ≠ .protectedCall)
    (hcode : c.expandItems isAsync k (item :: items) body = .ok code) :
    ∃ code', c.expandItems isAsync (k + 1) items body = .ok code' ∧
      c.expandGuarded isAsync k item code' = code := by
  obtain ⟨code', hcode', hcode⟩ := Except.bind_eq_ok.mp hcode
  rw [if_neg hstyle] at hcode
  exact ⟨code', hcode', Except.ok.inj hcode⟩

/-- Nested guarded regions end as holding the resources around the body ends, and
record the same events. -/
theorem execList_expandItems_guarded
    (hstyle : c.conventions.expansion ≠ .protectedCall) (hrt : rt.Follows c.conventions)
    (hinner : RunsInside rt Private env body inner)
    (hholding : rt.Holding c.conventions env inner k items s r es)
    (hcode : c.expandItems isAsync k items body = .ok code)
    (hapart : c.Apart Private m items) (hm : k + items.length ≤ m)
    (hmirrors : Mirrors Private place env s env' S) :
    RunsAmong rt Private place s env' S code r es := by
  induction hholding generalizing code place env' S with
  | code hrun =>
      cases hcode
      exact hinner hrun hmirrors
  | fails hacquire hfails =>
      obtain ⟨code', -, rfl⟩ := expandItems_cons_guarded isAsync hstyle hcode
      exact hapart.run_enter_of_fails hrt isAsync hmirrors hacquire hfails _
  | @unbound i item items s s' p v hacquire hfails hbinding hunpack =>
      rw [List.length_cons] at hm
      obtain ⟨code', -, rfl⟩ := expandItems_cons_guarded isAsync hstyle hcode
      have hevents : [Event.acquire i, .release i v.asFault] =
          Event.acquire i :: [] ++ [.release i (Ending.shown (.error v))] := rfl
      rw [hevents]
      apply hapart.run_guarded isAsync (by omega) hrt hmirrors hacquire hfails
      intro place₁ env₁ S₁ hmirrors₁ hvalue
      exact hapart.run_bind_of_error hmirrors₁ hvalue hbinding hunpack _
  | held hacquire hfails hbinds hrest ih =>
      rw [List.length_cons] at hm
      obtain ⟨code', hcode', rfl⟩ := expandItems_cons_guarded isAsync hstyle hcode
      apply hapart.run_guarded isAsync (by omega) hrt hmirrors hacquire hfails
      intro place₁ env₁ S₁ hmirrors₁ hvalue
      obtain ⟨env₂, S₂, hmirrors₂, hkeeps, hbind⟩ := hapart.run_bind hmirrors₁ hvalue hbinds
      exact (ih hcode' hapart.tail (by omega) hmirrors₂).of_keeps hkeeps fun eng => hbind eng _

end Context

/-! ## The reference behaviour -/

/-- A scoped statement that is lowered to guarded regions behaves as the reference
run says: it has exactly one answer, with the events and the outcome of the
reference run over the same resources.

Functions of the state may use the names that the expansion declares for variables
of their own, and may have captured such variables as long as these exist, which is
so in every state that code comes to (`Stmt.execList_closed`).  In a function that
is returned such variables may stand elsewhere; if no function uses these names, the
results are just the same. -/
theorem Scoped.guarded_refines_runScoped
    (rt : Runtime W) (c : Context) (s : Scoped) (inAsync : Bool) (b : Outcome)
    (results : List Value) {items : List Item} {body code : List Stmt}
    {env : Env} {st st₁ st₂ : State W}
    (hstyle : c.conventions.expansion = .tryCatchFinally) (hrt : rt.Follows c.conventions)
    (hlength : rt.resources.length = s.items.length) (hnames : s.Separate c)
    (hcode : s.lowerAlone c inAsync = .ok code)
    (hparts : s.LowersInto c (s.isAsync || inAsync) items body)
    (hstate : st.Closed (s.Declares c))
    (hacquires : rt.Acquires c.conventions env 0 items st st₁)
    (hbody : rt.Executes env body st₁ ⟨b.ending results, st₂, [.body]⟩) :
    ∃ st₃ place, place.MovesOnly (s.Declares c) ∧
      (st.Avoids (s.Declares c) →
        ((runScoped rt.resources b).outcome.ending results).move place =
          (runScoped rt.resources b).outcome.ending results) ∧
      ∀ a, rt.Executes env code st a ↔
        a = ⟨((runScoped rt.resources b).outcome.ending results).move place, st₃,
          (runScoped rt.resources b).events⟩ := by
  have hcalls : c.conventions.expansion = .protectedCall →
      "pcall" ∉ s.boundNames ∧ "table" ∉ s.boundNames := by simp [hstyle]
  obtain ⟨hitems, hapart⟩ := hparts.apart (by simp [hstyle]) hcalls hnames.acquire
  have hfree := hparts.not_declares_of_mem_body (by simp [hstyle]) hcalls hnames.body
  have hexpand := expandScoped_of_lowerAlone hcode hparts
  rw [Context.expandScoped, if_neg (by simp [hstyle])] at hexpand
  have hholding := hacquires.holding_runScoped (hitems.trans hlength.symm) hbody
  obtain ⟨n, place, st₃, hrun, hplace, -⟩ := Context.execList_expandItems_guarded s.isAsync
    (by simp [hstyle]) hrt (Context.runsInside hfree fun _ _ h => h) hholding hexpand hapart
    (by omega) (s.mirrors_self env hstate)
  exact ⟨st₃, place, hplace,
    fun hst => hacquires.move_ending_runScoped hbody hapart.acquire hfree hplace hst _,
    Runtime.Executes.iff_eq ⟨n, hrun⟩⟩

/-- An exception that the inner resource replaces and the outer one handles.  It is
thrown by a function that has captured a variable `x` and has a variable `y` of its
own, while the statement binds `x` and `y`. -/
theorem Scoped.guarded_refines_runScoped_of_throw :
    ∃ code st, (Scoped.sample (.throw (.call (.ident "helper") []))).lowerAlone
        ⟨.typescript, "__"⟩ false = .ok code ∧
      ∀ a, (Runtime.sample .typescript [.releasing .handled, .releasing (.replace ⟨"Late"⟩)]
          (.sequence [.null, .null]) rfl).Executes .helper code (.withHelper (.fault ⟨"Oops"⟩)) a ↔
        a = ⟨.ok .normal, st, [.acquire 0, .acquire 1, .body, .release 1 (some ⟨"Oops"⟩),
          .release 0 (some ⟨"Late"⟩)]⟩ := by
  let rt := Runtime.sample .typescript [.releasing .handled, .releasing (.replace ⟨"Late"⟩)]
    (.sequence [.null, .null]) rfl
  let s := Scoped.sample (.throw (.call (.ident "helper") []))
  have hbody : rt.Executes .helper s.body (.withHelper (.fault ⟨"Oops"⟩))
      ⟨.error (.fault ⟨"Oops"⟩),
        (State.withHelper (.fault ⟨"Oops"⟩)).declare false "y" (.fault ⟨"Oops"⟩), [.body]⟩ :=
    ⟨2, rfl⟩
  obtain ⟨st, place, -, -, hrun⟩ := Scoped.guarded_refines_runScoped rt ⟨.typescript, "__"⟩ s false
    (.exception ⟨"Oops"⟩) [] rfl ⟨rfl, rfl, by decide⟩ rfl ⟨by decide, by decide⟩ rfl
    ⟨_, _, rfl, rfl⟩ (State.withHelper_closed rfl _)
    (Runtime.sample_acquires (.throw (.call (.ident "helper") [])) rfl rfl ⟨_, rfl⟩) hbody
  exact ⟨_, st, rfl, hrun⟩

end Bracket
