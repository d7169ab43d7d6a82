import Bracket.Proofs.Execution.Packing
import Bracket.Proofs.Refinement.Separation

/-!
# The protected call holds its resource

The expansion with a protected call releases a resource exactly once on every way
out, shows it the error that propagates, and ends as the release says.  A return
out of the held code reaches the code around the statement, with the same
results, unless it stands in a loop initialiser.
-/

namespace Bracket

variable {W : Type} {rt : Runtime W} {env : Env} {s s' : State W} {es : List Event}

/-! ## Tables and primitives -/

theorem Double.ofNat_one_whole :
    (Double.ofNat 1).isWhole ∧ ¬(Double.ofNat 1).negative ∧ (Double.ofNat 1).wholeSize = 1 := by
  decide +kernel

theorem Double.ofNat_two_whole :
    (Double.ofNat 2).isWhole ∧ ¬(Double.ofNat 2).negative ∧ (Double.ofNat 2).wholeSize = 2 := by
  decide +kernel

/-- The language has protected calls, and no variable hides their names. -/
structure Runtime.Protects (rt : Runtime W) (env : Env) : Prop where
  calls : rt.protectedCalls = true
  pcall : env "pcall" = none
  table : env "table" = none

namespace Runtime.Protects

theorem of_sameOff
    {Q : String → Prop} {env' : Env} (h : rt.Protects env) (henv : env.SameOff Q env')
    (hpcall : ¬Q "pcall") (htable : ¬Q "table") : rt.Protects env' :=
  ⟨h.calls, (henv _ hpcall).trans h.pcall, (henv _ htable).trans h.table⟩

theorem elementAt_one (h : rt.Protects env) (vs : List Value) :
    rt.elementAt vs (Double.ofNat 1) = Value.first vs := by
  obtain ⟨hwhole, hpositive, hsize⟩ := Double.ofNat_one_whole
  cases vs <;> simp [elementAt, firstIndex, h.calls, hwhole, hpositive, hsize, Value.first]

theorem elementAt_two (h : rt.Protects env) (v : Value) (vs : List Value) :
    rt.elementAt (v :: vs) (Double.ofNat 2) = Value.first vs := by
  obtain ⟨hwhole, hpositive, hsize⟩ := Double.ofNat_two_whole
  cases vs <;> simp [elementAt, firstIndex, h.calls, hwhole, hpositive, hsize, Value.first]

theorem results_pcall (h : rt.Protects env) (eng : Engine W) (s : State W) :
    (Expr.ident "pcall").results rt eng env s =
      some ⟨.ok [.primitive .protectedCall], s, []⟩ := by
  apply Expr.results_ident_of_read
  simp [readName, h.pcall, global, h.calls]

theorem results_unpack (h : rt.Protects env) (eng : Engine W) (s : State W) :
    (Expr.field (.ident "table") "unpack").results rt eng env s =
      some ⟨.ok [.primitive .unpack], s, []⟩ := by
  have htable : (Expr.ident "table").results rt eng env s =
      some ⟨.ok [.primitive .tables], s, []⟩ := by
    apply Expr.results_ident_of_read
    simp [readName, h.table, global, h.calls]
  have hname : (Expr.string "unpack").results rt eng env s =
      some ⟨.ok [.string "unpack"], s, []⟩ := by
    rw [Expr.string, Expr.results]
    rfl
  exact Expr.results_member false (Run.one_of_answer htable) (Run.one_of_answer hname) rfl

end Runtime.Protects

/-! ## The call -/

/-- The ending can leave a closure around packed statements: it is no jump, and a
return is none that escapes packing. -/
def Ending.CanLeave (escapes : Bool) : Ending → Prop
  | .ok .normal => True
  | .ok (.returned _) => escapes = false
  | .ok _ => False
  | .error _ => True

theorem Ending.CanLeave.afterRelease
    {escapes : Bool} {r : Ending} (h : r.CanLeave escapes) (signal : Signal) :
    (r.afterRelease signal).CanLeave false := by
  have hweak : r.CanLeave false := by
    match r with
    | .ok .normal => trivial
    | .ok (.returned vs) => rfl
    | .ok .broke => exact h.elim
    | .ok .continued => exact h.elim
    | .error v => trivial
  cases signal with
  | replace e => trivial
  | propagate => exact hweak
  | handled =>
      cases r with
      | ok d => exact hweak
      | error v => trivial

@[simp] theorem Ending.canLeave_move
    {escapes : Bool} {r : Ending} {place : Placement} :
    (r.move place).CanLeave escapes ↔ r.CanLeave escapes := by
  cases r with
  | error v => rfl
  | ok c => cases c <;> rfl

/-- What a protected call of packed statements yields where the statements
themselves have an ending. -/
inductive Ending.Yields (found : Bool) : Ending → List Value → Prop
  | normal : Yields found (.ok .normal) [.bool true]
  | returned (vs : List Value) :
      found = true → Yields found (.ok (.returned vs)) [.bool true, .sequence vs]
  | thrown (v : Value) : Yields found (.error v) [.bool false, v]

theorem Run.Packs.answer
    {found escapes : Bool} {m m' : Run W Completion} {r : Ending}
    (h : Run.Packs found escapes m m') (hm : m s = some ⟨r, s', es⟩) :
    ∃ r', Completion.PackedEnding found escapes r r' ∧ m' s = some ⟨r', s', es⟩ := by
  have hs := h s
  rw [hm] at hs
  generalize m' s = b at hs
  cases hs with
  | error v => exact ⟨_, .error v, rfl⟩
  | ok s es h => exact ⟨_, .ok h, rfl⟩

/-- What a protected call makes of the results of a function or of its error. -/
def Runtime.protectedResults : Except Value (List Value) → List Value
  | .ok vs => .bool true :: vs
  | .error v => [.bool false, v]

theorem Ending.yields_of_packed
    {found escapes : Bool} {r r' : Ending}
    (hpacked : Completion.PackedEnding found escapes r r') (hleave : r.CanLeave escapes) :
    Ending.CanLeave false r' ∧
      r.Yields found (Runtime.protectedResults (r'.map Completion.results)) := by
  cases hpacked with
  | error v => exact ⟨trivial, .thrown v⟩
  | ok hc =>
      cases hc with
      | normal => exact ⟨trivial, .normal⟩
      | broke => exact hleave.elim
      | continued => exact hleave.elim
      | packed vs hfound => exact ⟨rfl, .returned vs hfound⟩
      | escaped vs hescapes =>
          rw [Ending.CanLeave, hescapes] at hleave
          exact nomatch hleave

theorem Runtime.engine_call (n : Nat) : (rt.engine (n + 1)).call = rt.apply (rt.engine n) := rfl

theorem Runtime.call_anonymous
    {code : List Stmt} {n : Nat} {r : Ending}
    (hrun : Stmt.execList rt (rt.engine n) env code s = some ⟨r, s', es⟩)
    (hleave : r.CanLeave false) :
    (rt.engine (n + 1)).call (.closure (.anonymous [] code) env) [] s =
      some ⟨r.map Completion.results, s', es⟩ := by
  rw [engine_call, apply]
  refine (Run.bind_of_silent _ (Run.pure_apply [] s)).trans ?_
  cases r with
  | error v => exact Run.bind_of_error _ hrun
  | ok c =>
      refine (Run.bind_of_ok _ hrun).trans ?_
      cases c with
      | normal => simp [Except.map, Completion.results]
      | returned vs => simp [Except.map, Completion.results]
      | broke => exact hleave.elim
      | continued => exact hleave.elim

theorem Runtime.Protects.results_call_pcall
    {f : Func} {n : Nat} {r : Except Value (List Value)} (h : rt.Protects env)
    (hcall : (rt.engine (n + 1)).call (.closure f (env.restrict f.names)) [] s =
      some ⟨r, s', es⟩) :
    (Expr.call (.ident "pcall") [.function f]).results rt (rt.engine (n + 2)) env s =
      some ⟨.ok (protectedResults r), s', es⟩ := by
  have hargs : Expr.resultsList rt (rt.engine (n + 2)) env [.function f] s =
      some ⟨.ok [.closure f (env.restrict f.names)], s, []⟩ := by
    rw [Expr.resultsList_singleton, Expr.results]
    rfl
  have hpcall : (rt.engine (n + 2)).call (.primitive .protectedCall)
      [.closure f (env.restrict f.names)] s = some ⟨.ok (protectedResults r), s', es⟩ := by
    rw [engine_call, apply, Run.bind_of_ok _ (Run.attempt_of_answer hcall)]
    cases r <;> simp [protectedResults]
  rw [Expr.results, Run.bind_of_silent _ (Run.one_of_answer (h.results_pcall _ s)),
    Run.bind_of_silent _ hargs, Value.first_cons, Run.bind_of_ok _ hpcall]
  simp [adjust, h.calls]

theorem Runtime.Protects.results_call_unpack
    {e : Expr} {us : List Value} {n : Nat} (h : rt.Protects env)
    (he : e.results rt (rt.engine (n + 1)) env s = some ⟨.ok [.sequence us], s, []⟩) :
    (Expr.call (.field (.ident "table") "unpack") [e]).results rt (rt.engine (n + 1)) env s =
      some ⟨.ok us, s, []⟩ := by
  have hunpack : (rt.engine (n + 1)).call (.primitive .unpack) [.sequence us] s =
      some ⟨.ok us, s, []⟩ := rfl
  rw [Expr.results, Run.bind_of_silent _ (Run.one_of_answer (h.results_unpack _ s)),
    Expr.resultsList_singleton, Run.bind_of_silent _ he, Value.first_cons,
    Run.bind_of_silent _ hunpack, Run.pure_apply, adjust, if_pos h.calls]

/-- A protected call of packed statements yields their ending. -/
theorem Runtime.Protects.results_protectedCall
    {found escapes : Bool} {r r' : Ending} {code : List Stmt} {n : Nat}
    (h : rt.Protects env) (hrun : Stmt.execList rt (rt.engine n) env code s = some ⟨r', s', es⟩)
    (hpacked : Completion.PackedEnding found escapes r r') (hleave : r.CanLeave escapes) :
    ∃ vs, r.Yields found vs ∧
      (Expr.call (.ident "pcall") [.function (.anonymous [] code)]).results rt
        (rt.engine (n + 2)) env s = some ⟨.ok vs, s', es⟩ := by
  have hnames : ∀ x ∈ Stmt.namesList code,
      env.restrict (Func.anonymous [] code).names x = env x := by
    intro x hx
    exact Env.restrict_of_mem env (by simpa [Func.names, Func.anonymous] using hx)
  have hcode := Stmt.execList_congr_env hnames hrun
  obtain ⟨hleave', hyields⟩ := Ending.yields_of_packed hpacked hleave
  exact ⟨_, hyields, h.results_call_pcall (call_anonymous hcode hleave')⟩

namespace Context

variable {c : Context} {k n : Nat} {found : Bool} {r : Ending} {vs : List Value}

/-! ## The clauses -/

theorem results_outcomeAt
    (rt : Runtime W) (eng : Engine W) (i : Nat)
    (hout : env.Holds s (c.temp .outcome k) (.sequence vs)) :
    (c.outcomeAt k i).results rt eng env s =
      some ⟨.ok [rt.elementAt vs (Double.ofNat i)], s, []⟩ := by
  have hposition : (Expr.number (Double.ofNat i)).results rt eng env s =
      some ⟨.ok [.number (Double.ofNat i)], s, []⟩ := by
    rw [Expr.number, Expr.results]
    rfl
  exact Expr.results_member true (Run.one_of_answer (hout.results_ident rt eng))
    (Run.one_of_answer hposition) rfl

/-- A comparison of the second element of the outcome with null. -/
theorem one_results_outcome_ne_null
    {v : Value} (hprotects : rt.Protects env) (eng : Engine W)
    (hout : env.Holds s (c.temp .outcome k) (.sequence (v :: vs))) :
    ((Expr.binary (c.outcomeAt k 2) .ne .null).results rt eng env).one s =
      some ⟨.ok (.bool !(Value.first vs).isNull), s, []⟩ := by
  have hleft := Run.one_of_answer (results_outcomeAt rt eng 2 hout)
  rw [hprotects.elementAt_two, Value.first_cons] at hleft
  have hright : (Expr.null.results rt eng env).one s = some ⟨.ok .null, s, []⟩ := by
    rw [Expr.null, Expr.results]
    rfl
  have hcombine : rt.combine .ne (Value.first vs) (Expr.null.results rt eng env).one s =
      some ⟨.ok (.bool !(Value.first vs).isNull), s, []⟩ := by
    rw [Runtime.combine, Run.bind_of_silent _ hright]
    · simp [Runtime.operate, Value.isNull]
    · simp
    · simp
  have hresults : (Expr.binary (c.outcomeAt k 2) .ne .null).results rt eng env s =
      some ⟨.ok [.bool !(Value.first vs).isNull], s, []⟩ := by
    rw [Expr.results, Run.bind_of_silent _ hleft, Run.bind_of_silent _ hcombine, Run.pure_apply]
  exact Run.one_of_answer hresults

/-- A packed return is issued again, and nothing else is. -/
theorem execList_resumeReturn
    {d : Completion} (hprotects : rt.Protects env) (n : Nat)
    (hyields : Ending.Yields found (.ok d) vs)
    (hout : env.Holds s (c.temp .outcome k) (.sequence vs)) :
    Stmt.execList rt (rt.engine (n + 1)) env (if found then [c.resumeReturn k] else []) s =
      some ⟨.ok d, s, []⟩ := by
  cases hyields with
  | normal =>
      cases found with
      | false => rfl
      | true =>
          have htest := one_results_outcome_ne_null hprotects (rt.engine (n + 1)) hout
          have hskip : Stmt.execOption rt (rt.engine (n + 1)) env none s =
              some ⟨.ok (.normal, []), s, []⟩ := rfl
          exact Stmt.execList_singleton
            (Stmt.exec_ifElse_of_false _ htest (rt.truthy_bool false) hskip)
  | returned us hfound =>
      subst hfound
      have htest := one_results_outcome_ne_null hprotects (rt.engine (n + 1)) hout
      have htable := results_outcomeAt rt (rt.engine (n + 1)) 2 hout
      rw [hprotects.elementAt_two, Value.first_cons] at htable
      have hreturn := Stmt.exec_block (Stmt.execList_singleton
        (Stmt.exec_ret (hprotects.results_call_unpack htable)))
      exact Stmt.execList_singleton
        (Stmt.exec_ifElse_of_true none htest (rt.truthy_bool true) hreturn)

/-- After a successful call the resource is released without an error. -/
theorem exec_onSuccess
    {d : Completion} (hrt : rt.Follows c.conventions) (hprotects : rt.Protects env) (n : Nat)
    (hyields : Ending.Yields found (.ok d) vs)
    (hout : env.Holds s (c.temp .outcome k) (.sequence vs))
    (hm : env.Holds s (c.temp .manager k) (.manager k)) :
    (c.onSuccess k found).exec rt (rt.engine (n + 1)) env s =
      some ⟨(Ending.afterRelease (.ok d) (rt.resource k).onRelease).map fun c => (c, []), s,
        [.release k none]⟩ := by
  have hnull : Expr.null.results rt (rt.engine (n + 1)) env s = some ⟨.ok [.null], s, []⟩ := by
    rw [Expr.null, Expr.results]
    rfl
  have hexit := exec_exitCall false hrt hm hnull
  have hresume := execList_resumeReturn hprotects n hyields hout
  apply Stmt.exec_block
  cases hsignal : (rt.resource k).onRelease with
  | replace e =>
      rw [hsignal] at hexit
      exact Stmt.execList_cons_of_error _ hexit
  | handled =>
      rw [hsignal] at hexit
      exact (Stmt.execList_cons_of_normal _ hexit).trans (by rw [Env.extend, hresume]; rfl)
  | propagate =>
      rw [hsignal] at hexit
      exact (Stmt.execList_cons_of_normal _ hexit).trans (by rw [Env.extend, hresume]; rfl)

/-- After a failed call the resource is released with the error, which is thrown
again unless the release handles it. -/
theorem exec_onFailure
    {v : Value} (hrt : rt.Follows c.conventions) (hprotects : rt.Protects env)
    (eng : Engine W)
    (hout : env.Holds s (c.temp .outcome k) (.sequence [.bool false, v]))
    (hm : env.Holds s (c.temp .manager k) (.manager k)) :
    (c.onFailure k).exec rt eng env s =
      some ⟨(Ending.afterRelease (.error v) (rt.resource k).onRelease).map fun c => (c, []), s,
        [.release k v.asFault]⟩ := by
  have herror := results_outcomeAt rt eng 2 hout
  rw [hprotects.elementAt_two, Value.first_cons] at herror
  have htest := one_results_negate_exitCall false hrt hm herror
  have hthrow : (Stmt.block [.throw (c.outcomeAt k 2)]).exec rt eng env s =
      some ⟨.error v, s, []⟩ :=
    Stmt.exec_block (Stmt.execList_singleton (Stmt.exec_throw (Run.one_of_answer herror)))
  have hskip : Stmt.execOption rt eng env none s = some ⟨.ok (.normal, []), s, []⟩ := rfl
  cases hsignal : (rt.resource k).onRelease with
  | replace e =>
      rw [hsignal] at htest
      exact Stmt.exec_ifElse_of_error _ none htest
  | handled =>
      rw [hsignal] at htest
      exact Stmt.exec_ifElse_of_false _ htest (rt.truthy_bool false) hskip
  | propagate =>
      rw [hsignal] at htest
      exact Stmt.exec_ifElse_of_true none htest (rt.truthy_bool true) hthrow

/-- The statement after the call releases the resource and ends as the release
says. -/
theorem execList_afterCall
    (hrt : rt.Follows c.conventions) (hprotects : rt.Protects env) (n : Nat)
    (hyields : r.Yields found vs)
    (hout : env.Holds s (c.temp .outcome k) (.sequence vs))
    (hm : env.Holds s (c.temp .manager k) (.manager k)) :
    Stmt.execList rt (rt.engine (n + 1)) env
        [.ifElse (c.outcomeAt k 1) (c.onSuccess k found) (some (c.onFailure k))] s =
      some ⟨r.afterRelease (rt.resource k).onRelease, s, [.release k r.shown]⟩ := by
  have htest := Run.one_of_answer (results_outcomeAt rt (rt.engine (n + 1)) 1 hout)
  rw [hprotects.elementAt_one, Value.first_cons] at htest
  have hsuccess {d : Completion} (hyields : Ending.Yields found (.ok d) vs)
      (hvs : Value.first vs = .bool true) :
      Stmt.execList rt (rt.engine (n + 1)) env
          [.ifElse (c.outcomeAt k 1) (c.onSuccess k found) (some (c.onFailure k))] s =
        some ⟨Ending.afterRelease (.ok d) (rt.resource k).onRelease, s, [.release k none]⟩ := by
    rw [hvs] at htest
    refine (Stmt.execList_singleton (Stmt.exec_ifElse_of_true _ htest (rt.truthy_bool true)
      (exec_onSuccess hrt hprotects n hyields hout hm))).trans ?_
    cases (rt.resource k).onRelease <;> rfl
  cases hyields with
  | normal => exact hsuccess .normal rfl
  | returned us hfound => exact hsuccess (.returned us hfound) rfl
  | thrown v =>
      have hfailure : Stmt.execOption rt (rt.engine (n + 1)) env (some (c.onFailure k)) s = _ :=
        exec_onFailure hrt hprotects (rt.engine (n + 1)) hout hm
      refine (Stmt.execList_singleton
        (Stmt.exec_ifElse_of_false _ htest (rt.truthy_bool false) hfailure)).trans ?_
      cases (rt.resource k).onRelease <;> rfl

/-! ## The region -/

/-- After a protected call the resource has been released once, and the ending is
that of the called statements after the release. -/
theorem execList_protectedRegion
    {code packed : List Stmt} {outcome : String} (hname : outcome = c.temp .outcome k)
    (hrt : rt.Follows c.conventions) (hprotects : rt.Protects env)
    (hpack : Stmt.packReturnsList 0 code = .ok (packed, found))
    (hleave : r.CanLeave (Stmt.returnsInInitList code))
    (hcode : Stmt.execList rt (rt.engine n) env code s = some ⟨r, s', es⟩)
    (hm : env.Holds s' (c.temp .manager k) (.manager k)) :
    ∃ s'', s.SameUpTo s' s'' ∧
      Stmt.execList rt (rt.engine (n + 2)) env
        [.letConst outcome
            (.array [.call (.ident "pcall") [.function (.anonymous [] packed)]]),
          .ifElse (c.outcomeAt k 1) (c.onSuccess k found) (some (c.onFailure k))] s =
        some ⟨r.afterRelease (rt.resource k).onRelease, s'', es ++ [.release k r.shown]⟩ := by
  subst hname
  obtain ⟨r', hpacked, hrun⟩ := (Stmt.packs_execList rt n env code hpack).answer hcode
  obtain ⟨vs, hyields, hcall⟩ := hprotects.results_protectedCall hrun hpacked hleave
  have hne : c.temp .manager k ≠ c.temp .outcome k := c.temp_ne_of_role_ne k k (by decide)
  have hm' := hm.after_declare hne false (.sequence vs)
  have hout := Env.Holds.declare env s' false (c.temp .outcome k) (.sequence vs)
  have hprotects' := hprotects.of_sameOff
    (.set (Q := (· = c.temp .outcome k)) rfl (s'.vars (c.temp .outcome k)).length)
    (c.temp_ne_pcall .outcome k).symm (c.temp_ne_table .outcome k).symm
  have hadds : s'.Adds (c.Owns k) (s'.declare false (c.temp .outcome k) (.sequence vs)) :=
    .declare ⟨.outcome, rfl⟩ false _
  have harray : (Expr.array [.call (.ident "pcall") [.function (.anonymous [] packed)]]).results rt
      (rt.engine (n + 2)) env s = some ⟨.ok [.sequence vs], s', es⟩ := by
    rw [Expr.results, Expr.resultsList_singleton, Run.bind_of_ok _ hcall]
    simp
  refine ⟨_, .of_adds ((Stmt.execList rt _ env code).grows hcode) hadds, ?_⟩
  rw [Stmt.letConst, Stmt.execList_cons_of_normal _
    (Stmt.exec_declare_of_ok false (Run.one_of_answer harray))]
  rw [Env.extend, Env.extend, Value.first_cons,
    execList_afterCall hrt hprotects' (n + 1) hyields hout hm']
  rfl

/-! ## Nested calls -/

variable {Private : String → Prop} {inner : State W → Answer W Completion → Prop}
  {place : Placement} {m : Nat} {item : Item} {items : List Item} {body code : List Stmt}
  {env' : Env} {S : State W}

theorem expandProtected_eq_ok
    {held : List Stmt} (hcode : c.expandProtected k item held = .ok code) :
    ∃ packed found,
      Stmt.packReturnsList 0 (c.bindEntryValue k item.binding ++ held) = .ok (packed, found) ∧
      c.enterStatements k item (c.enterCall k) ++
        [.letConst (c.temp .outcome k)
            (.array [.call (.ident "pcall") [.function (.anonymous [] packed)]]),
          .ifElse (c.outcomeAt k 1) (c.onSuccess k found) (some (c.onFailure k))] = code := by
  unfold expandProtected at hcode
  split at hcode
  · cases hcode
  · rename_i packed found hpack
    exact ⟨packed, found, hpack, Except.ok.inj hcode⟩

/-- The expansion of one resource around a region whose run is known, the binding
of the entry value included. -/
theorem Apart.run_protected
    {held : List Stmt}
    (hapart : c.Apart Private m (item :: items)) (hk : k < m)
    (hrt : rt.Follows c.conventions) (hprotects : rt.Protects env)
    (hpcall : ¬Private "pcall") (htable : ¬Private "table")
    (hmirrors : Mirrors Private place env s env' S)
    (hacquire : rt.Evaluates env item.acquire s ⟨.ok (.manager k), s', []⟩)
    (hfails : (rt.resource k).acquireFails = none)
    (hcode : c.expandProtected k item held = .ok code)
    (hleave : r.CanLeave (Stmt.returnsInInitList held))
    (hregion : ∀ {place₁ env₁ S₁}, Mirrors Private place₁ env s' env₁ S₁ →
      (∀ p, item.binding = some p → env₁.Holds S₁ (c.temp .value k) (rt.entryValue k).1) →
      RunsAmong rt Private place₁ s' env₁ S₁ (c.bindEntryValue k item.binding ++ held) r es) :
    RunsAmong rt Private place s env' S code (r.afterRelease (rt.resource k).onRelease)
      (.acquire k :: es ++ [.release k r.shown]) := by
  obtain ⟨packed, found, hpack, rfl⟩ := expandProtected_eq_ok hcode
  obtain ⟨n, place₁, env₁, S₁, hmirrors₁, hkeeps₁, hgrows, hm, hvalue, henter⟩ :=
    hapart.run_enter hk hrt false hmirrors hacquire hfails
  obtain ⟨n', place₂, S₂, hrun, hplace₂, hspares⟩ := hregion hmirrors₁ hvalue
  have hbinding : Stmt.returnsInInitList (c.bindEntryValue k item.binding ++ held) =
      Stmt.returnsInInitList held := by
    rw [Stmt.returnsInInitList_append, Stmt.returnsInInitList_of_isBinding
      fun b hb => isBinding_bindEntryValue hb, Bool.false_or]
  rw [← hbinding, ← Ending.canLeave_move] at hleave
  obtain ⟨S₃, hsame, hprotected⟩ := execList_protectedRegion rfl hrt
    (hprotects.of_sameOff hmirrors₁.env hpcall htable) hpack hleave
    (Stmt.execList_mono (Nat.le_max_right n n') hrun) (hm.of_spares hspares)
  refine ⟨max n n' + 2, place₂, S₃, ?_, hplace₂, ?_⟩
  · refine (henter _ (by omega)).trans ?_
    rw [hprotected, Ending.move_afterRelease, Ending.shown_move]
    simp
  · exact (hkeeps₁.trans_spares hspares).trans_sameUpTo (hsame.mono hgrows)

theorem expandItems_cons_protected
    {isAsync : Bool} (hstyle : c.conventions.expansion = .protectedCall)
    (hcode : c.expandItems isAsync k (item :: items) body = .ok code) :
    ∃ held, c.expandItems isAsync (k + 1) items body = .ok held ∧
      c.expandProtected k item held = .ok code := by
  obtain ⟨held, hheld, hcode⟩ := Except.bind_eq_ok.mp hcode
  rw [if_pos hstyle] at hcode
  exact ⟨held, hheld, hcode⟩

/-- What holding the resources ends with can leave the closure around it. -/
theorem canLeave_expandItems
    {isAsync : Bool} (hstyle : c.conventions.expansion = .protectedCall)
    (hleave : ∀ s a, inner s a → Ending.CanLeave (Stmt.returnsInInitList body) a.result)
    (hholding : rt.Holding c.conventions env inner k items s r es)
    (hcode : c.expandItems isAsync k items body = .ok code) :
    r.CanLeave (Stmt.returnsInInitList code) := by
  induction hholding generalizing code with
  | code hrun =>
      cases hcode
      exact hleave _ _ hrun
  | fails _ _ => trivial
  | @unbound i item items s s' p v _ _ _ _ =>
      obtain ⟨held, -, hcode⟩ := expandItems_cons_protected hstyle hcode
      have herror : Ending.CanLeave false (.error v) := trivial
      rw [(returnsList_expandProtected hcode).2]
      exact herror.afterRelease _
  | held _ _ _ _ ih =>
      obtain ⟨held, hheld, hcode⟩ := expandItems_cons_protected hstyle hcode
      rw [(returnsList_expandProtected hcode).2]
      exact (ih hheld).afterRelease _

/-- Nested protected calls end as holding the resources around the body ends, and
record the same events. -/
theorem execList_expandItems_protected
    {isAsync : Bool} (hstyle : c.conventions.expansion = .protectedCall)
    (hrt : rt.Follows c.conventions) (hprotects : rt.Protects env)
    (hpcall : ¬Private "pcall") (htable : ¬Private "table")
    (hinner : RunsInside rt Private env body inner)
    (hleave : ∀ s a, inner s a → Ending.CanLeave (Stmt.returnsInInitList body) a.result)
    (hholding : rt.Holding c.conventions env inner k items s r es)
    (hcode : c.expandItems isAsync k items body = .ok code)
    (hapart : c.Apart Private m items) (hm : k + items.length ≤ m)
    (hmirrors : Mirrors Private place env s env' S) :
    RunsAmong rt Private place s env' S code r es := by
  induction hholding generalizing code place env' S with
  | code hrun =>
      cases hcode
      exact hinner hrun hmirrors
  | fails hacquire hfails =>
      obtain ⟨held, -, hcode⟩ := expandItems_cons_protected hstyle hcode
      obtain ⟨packed, found, -, rfl⟩ := expandProtected_eq_ok hcode
      exact hapart.run_enter_of_fails hrt false hmirrors hacquire hfails _
  | @unbound i item items s s' p v hacquire hfails hbinding hunpack =>
      rw [List.length_cons] at hm
      obtain ⟨held, -, hcode⟩ := expandItems_cons_protected hstyle hcode
      have hevents : [Event.acquire i, .release i v.asFault] =
          Event.acquire i :: [] ++ [.release i (Ending.shown (.error v))] := rfl
      have hthrown : Ending.CanLeave (Stmt.returnsInInitList held) (.error v) := trivial
      rw [hevents]
      apply hapart.run_protected (by omega) hrt hprotects hpcall htable hmirrors hacquire
        hfails hcode hthrown
      intro place₁ env₁ S₁ hmirrors₁ hvalue
      exact hapart.run_bind_of_error hmirrors₁ hvalue hbinding hunpack _
  | held hacquire hfails hbinds hrest ih =>
      rw [List.length_cons] at hm
      obtain ⟨held, hheld, hcode⟩ := expandItems_cons_protected hstyle hcode
      apply hapart.run_protected (by omega) hrt hprotects hpcall htable hmirrors hacquire
        hfails hcode (canLeave_expandItems hstyle hleave hrest hheld)
      intro place₁ env₁ S₁ hmirrors₁ hvalue
      obtain ⟨env₂, S₂, hmirrors₂, hkeeps, hbind⟩ := hapart.run_bind hmirrors₁ hvalue hbinds
      exact (ih hheld hapart.tail (by omega) hmirrors₂).of_keeps hkeeps fun eng => hbind eng _

end Context

/-! ## The reference behaviour -/

theorem Outcome.canLeave_ending
    {b : Outcome} {escapes : Bool} (results : List Value)
    (hbreaks : b ≠ .earlyExit .breaks) (hcontinues : b ≠ .earlyExit .continues)
    (hreturns : b = .earlyExit .returns → escapes = false) :
    (b.ending results).CanLeave escapes := by
  match b with
  | .normal => trivial
  | .exception e => trivial
  | .earlyExit .returns => exact hreturns rfl
  | .earlyExit .breaks => exact absurd rfl hbreaks
  | .earlyExit .continues => exact absurd rfl hcontinues

theorem Scoped.not_declares_call
    {c : Context} {x : String} (s : Scoped)
    (hcalls : "pcall" ∉ s.boundNames ∧ "table" ∉ s.boundNames)
    (hx : x = "pcall" ∨ x = "table") : ¬s.Declares c x := by
  rintro (⟨role, j, -, heq⟩ | hbound)
  · rcases hx with rfl | rfl
    · exact c.temp_ne_pcall role j heq.symm
    · exact c.temp_ne_table role j heq.symm
  · rcases hx with rfl | rfl
    · exact hcalls.1 hbound
    · exact hcalls.2 hbound

/-- A scoped statement that is lowered to protected calls behaves as the reference
run says, and carries the results of a return out: it has exactly one answer, with
the events and the outcome of the reference run over the same resources.  A body
that returns must not do so in a loop initialiser.

Functions of the state may use the names that the expansion declares, as they may
with guarded regions. -/
theorem Scoped.protectedCall_refines_runScoped
    (rt : Runtime W) (c : Context) (s : Scoped) (inAsync : Bool) (b : Outcome)
    (results : List Value) {items : List Item} {body code : List Stmt}
    {env : Env} {st st₁ st₂ : State W}
    (hstyle : c.conventions.expansion = .protectedCall) (hrt : rt.Follows c.conventions)
    (hprotects : rt.Protects env)
    (hlength : rt.resources.length = s.items.length) (hnames : s.Separate c)
    (hcalls : "pcall" ∉ s.boundNames ∧ "table" ∉ s.boundNames)
    (hcode : s.lowerAlone c inAsync = .ok code)
    (hparts : s.LowersInto c (s.isAsync || inAsync) items body)
    (hstate : st.Closed (s.Declares c))
    (hacquires : rt.Acquires c.conventions env 0 items st st₁)
    (hbody : rt.Executes env body st₁ ⟨b.ending results, st₂, [.body]⟩)
    (hbreaks : b ≠ .earlyExit .breaks) (hcontinues : b ≠ .earlyExit .continues)
    (hreturns : b = .earlyExit .returns → Stmt.returnsInInitList s.body = false) :
    ∃ st₃ place, place.MovesOnly (s.Declares c) ∧
      (st.Avoids (s.Declares c) →
        ((runScoped rt.resources b).outcome.ending results).move place =
          (runScoped rt.resources b).outcome.ending results) ∧
      ∀ a, rt.Executes env code st a ↔
        a = ⟨((runScoped rt.resources b).outcome.ending results).move place, st₃,
          (runScoped rt.resources b).events⟩ := by
  obtain ⟨hitems, hapart⟩ := hparts.apart (by simp [hstyle]) (fun _ => hcalls) hnames.acquire
  have hfree := hparts.not_declares_of_mem_body (by simp [hstyle]) (fun _ => hcalls) hnames.body
  have hexpand := expandScoped_of_lowerAlone hcode hparts
  rw [Context.expandScoped, if_neg (by simp [hstyle])] at hexpand
  have hescapes (h : b = .earlyExit .returns) : Stmt.returnsInInitList body = false := by
    obtain ⟨i, j, -, hlower⟩ := hparts
    have hsource := (Stmt.returnsList_lowerList hstyle s.body hlower).2
    rw [hreturns h] at hsource
    exact Bool.eq_false_iff.mpr fun hbody => nomatch hsource hbody
  have hleave := Outcome.canLeave_ending results hbreaks hcontinues hescapes
  let inner (s : State W) (a : Answer W Completion) : Prop :=
    rt.Executes env body s a ∧ Ending.CanLeave (Stmt.returnsInInitList body) a.result
  have hinner : Context.RunsInside rt (s.Declares c) env body inner :=
    Context.runsInside hfree fun _ _ h => h.1
  have hrun : inner st₁ ⟨b.ending results, st₂, [.body]⟩ := ⟨hbody, hleave⟩
  have hholding := hacquires.holding_runScoped (hitems.trans hlength.symm) hrun
  have hprivate {x : String} (hx : x = "pcall" ∨ x = "table") : ¬s.Declares c x :=
    s.not_declares_call hcalls hx
  obtain ⟨n, place, st₃, hrun, hplace, -⟩ :=
    Context.execList_expandItems_protected hstyle hrt hprotects
    (hprivate (.inl rfl)) (hprivate (.inr rfl)) hinner (fun _ _ h => h.2) hholding
    hexpand hapart (by omega) (s.mirrors_self env hstate)
  exact ⟨st₃, place, hplace,
    fun hst => hacquires.move_ending_runScoped hbody hapart.acquire hfree hplace hst _,
    Runtime.Executes.iff_eq ⟨n, hrun⟩⟩

/-- A return out of two held resources, one of which would have handled an error.
What is returned comes from a function that has captured a variable `x` and has a
variable `y` of its own, while the statement binds `x` and `y`. -/
theorem Scoped.protectedCall_refines_runScoped_of_return :
    ∃ code st, (Scoped.sample (.ret (some (.call (.ident "helper") [])))).lowerAlone
        ⟨.lua, "__"⟩ false = .ok code ∧
      ∀ a, (Runtime.sample .lua [.ok, .releasing .handled]
          (.sequence [.null, .null]) rfl).Executes .helper code (.withHelper (.string "done")) a ↔
        a = ⟨.ok (.returned [.string "done"]), st,
          [.acquire 0, .acquire 1, .body, .release 1 none, .release 0 none]⟩ := by
  let rt := Runtime.sample .lua [.ok, .releasing .handled] (.sequence [.null, .null]) rfl
  let s := Scoped.sample (.ret (some (.call (.ident "helper") [])))
  have hbody : rt.Executes .helper s.body (.withHelper (.string "done"))
      ⟨.ok (.returned [.string "done"]),
        (State.withHelper (.string "done")).declare false "y" (.string "done"), [.body]⟩ :=
    ⟨2, rfl⟩
  obtain ⟨st, place, -, -, hrun⟩ := Scoped.protectedCall_refines_runScoped rt ⟨.lua, "__"⟩ s
    false (.earlyExit .returns) [.string "done"] rfl ⟨rfl, rfl, by decide⟩ ⟨rfl, rfl, rfl⟩ rfl
    ⟨by decide, by decide⟩ (by decide) rfl ⟨_, _, rfl, rfl⟩ (State.withHelper_closed rfl _)
    (Runtime.sample_acquires (.ret (some (.call (.ident "helper") []))) rfl rfl ⟨_, rfl⟩) hbody
    (by decide) (by decide) fun _ => rfl
  exact ⟨_, st, rfl, hrun⟩

/-- Code with this answer goes on with what stands behind it. -/
def Answer.fallsThrough (a : Answer Unit Completion) : Bool :=
  match a.result with
  | .ok .normal => true
  | _ => false

/-- A return in a loop initialiser does not reach the code around the statement:
the body returns and the statement falls through. -/
theorem Scoped.protectedCall_loses_return_of_init :
    ∃ (rt : Runtime Unit) (s : Scoped) (code : List Stmt) (env : Env)
      (a : Answer Unit Completion),
      rt.Follows .lua ∧ rt.Protects env ∧ rt.resources.length = s.items.length ∧
      s.Separate ⟨.lua, "__"⟩ ∧ "pcall" ∉ s.boundNames ∧ "table" ∉ s.boundNames ∧
      s.lowerAlone ⟨.lua, "__"⟩ false = .ok code ∧
      rt.Acquires .lua env 0 s.items .empty .empty ∧
      rt.Executes env s.body .empty ⟨.ok (.returned [.string "done"]), .empty, [.body]⟩ ∧
      rt.Executes env code .empty a ∧ a.result = .ok .normal ∧
      (runScoped rt.resources (.earlyExit .returns)).outcome = .earlyExit .returns := by
  let rt := Runtime.sample .lua [.ok, .ok] (.sequence [.null, .null]) rfl
  let s := Scoped.sample (.forLoop (some (.ret (some (.string "done")))) none none (.block []))
  let env : Env := fun _ => none
  let code := (s.lowerAlone ⟨.lua, "__"⟩ false).toOption.getD []
  have hrun : (Stmt.execList rt (rt.engine 5) env code .empty).any Answer.fallsThrough = true := by
    decide +kernel
  have hbody : rt.Executes env s.body .empty
      ⟨.ok (.returned [.string "done"]), .empty, [.body]⟩ := ⟨1, rfl⟩
  cases ha : Stmt.execList rt (rt.engine 5) env code .empty with
  | none =>
      rw [ha] at hrun
      exact nomatch hrun
  | some a =>
      have hnormal : a.result = .ok .normal := by
        rw [ha] at hrun
        change a.fallsThrough = true at hrun
        unfold Answer.fallsThrough at hrun
        split at hrun
        · assumption
        · exact nomatch hrun
      exact ⟨rt, s, code, env, a, ⟨rfl, rfl, by decide⟩, ⟨rfl, rfl, rfl⟩, rfl,
        ⟨by decide, by decide⟩, by decide, by decide, rfl,
        Runtime.sample_acquires (.block []) rfl rfl ⟨_, rfl⟩, hbody, ⟨5, ha⟩, hnormal, rfl⟩

end Bracket
