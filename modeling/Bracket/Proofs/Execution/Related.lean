import Bracket.Proofs.Execution.Simulation

/-!
# Related runs of the same code

For any simulation, two runs of the same code are related if the two environments
agree on the names that the code mentions.  The induction is over the code; calls
and loops are left to the engines, and the engines with the same number of steps
are related by induction on that number.
-/

namespace Bracket

variable {W : Type} {S : Simulation W} {rt : Runtime W} {eng eng' : Engine W}
  {env env' : Env}

namespace Simulation

/-! ## The operations of a runtime -/

theorem answerTo_related
    (w : W) {q q' : Query} (h : q'.seen = q.seen) :
    Except.Related S.Alike S.Alike (rt.answerTo w q) (rt.answerTo w q') := by
  unfold Runtime.answerTo
  rw [h]
  cases rt.query w q.seen with
  | ok d => exact .ok (alike_datum d)
  | error d => exact .error (alike_datum d)

theorem ask_related
    {q q' : Query} (h : q'.seen = q.seen) : S.Rel S.Alike (rt.ask q) (rt.ask q') :=
  inspect fun w => answerTo_related w h

theorem tell_related
    {c c' : Command} (h : c'.seen = c.seen) : S.Rel S.AllAlike (rt.tell c) (rt.tell c') := by
  unfold Runtime.tell
  rw [h]
  refine S.act fun w => ⟨?_, rfl, rfl⟩
  dsimp only
  cases (rt.command w c.seen).1 with
  | ok ds => exact .ok (.data ds)
  | error d => exact .error (alike_datum d)

theorem readName_related
    {x : String} (hx : S.Admits x (env x) ∧ env' x = (env x).map (S.place x)) :
    S.Rel S.Alike (rt.readName env x) (rt.readName env' x) := by
  obtain ⟨hx, hx'⟩ := hx
  unfold Runtime.readName
  rw [hx']
  cases hi : env x with
  | some i =>
      rw [hi] at hx
      exact S.read hx
  | none =>
      dsimp only [Option.map_none]
      unfold Runtime.global
      split
      · exact S.pure (alike_plain rfl)
      · split
        · exact S.pure (alike_plain rfl)
        · exact ask_related rfl

theorem assignName_related
    {x : String} {v v' : Value} (hx : S.Admits x (env x) ∧ env' x = (env x).map (S.place x))
    (hv : S.Alike v v') :
    S.Rel (fun _ _ => True) (rt.assignName env x v) (rt.assignName env' x v') := by
  obtain ⟨hx, hx'⟩ := hx
  unfold Runtime.assignName
  rw [hx']
  cases hi : env x with
  | some i =>
      rw [hi] at hx
      exact S.write hx hv
  | none =>
      have hseen : (Command.setVariable x v').seen = (Command.setVariable x v).seen := by
        rw [Command.seen, Command.seen, Alike.seen_eq hv]
      exact S.bind (tell_related hseen) fun _ _ _ => S.pure trivial

theorem elementAt_related
    {vs vs' : List Value} (h : S.AllAlike vs vs') (d : Double) :
    S.Alike (rt.elementAt vs d) (rt.elementAt vs' d) := by
  obtain ⟨rfl, hvs⟩ := h
  unfold Runtime.elementAt
  split
  · rw [List.getD_eq_getElem?_getD, List.getD_eq_getElem?_getD, List.getElem?_map]
    cases hget : vs[d.wholeSize - rt.firstIndex]? with
    | none => exact alike_plain rfl
    | some v => exact ⟨rfl, hvs v (List.mem_of_getElem? hget)⟩
  · exact alike_plain rfl

/-- A field of a record, where only one of that name counts. -/
theorem lookup_related
    {fs : List (String × Value)} (k : String) (h : (Value.record fs).Admitted S.Admits) :
    (fs.map fun p => (p.1, p.2.move S.place)).lookup k = (fs.lookup k).map (Value.move S.place) ∧
      ∀ v ∈ fs.lookup k, v.Admitted S.Admits := by
  rw [Value.admitted_record] at h
  induction fs with
  | nil => exact ⟨rfl, by simp⟩
  | cons p fs ih =>
      rw [List.forall_mem_cons] at h
      rw [List.map_cons, List.lookup_cons, List.lookup_cons]
      split
      · exact ⟨rfl, by rintro v ⟨⟩; exact h.1⟩
      · exact ih h.2

theorem memberOf_related
    (w : W) {a a' b b' : Value} (ha : S.Alike a a') (hb : S.Alike b b') :
    Except.Related S.Alike S.Alike (rt.memberOf w a b) (rt.memberOf w a' b') := by
  have hask : Except.Related S.Alike S.Alike (rt.answerTo w (.member a b))
      (rt.answerTo w (.member a' b')) :=
    answerTo_related w (by rw [Query.seen, Query.seen, Alike.seen_eq ha, Alike.seen_eq hb])
  obtain ⟨rfl, ha⟩ := ha
  obtain ⟨rfl, -⟩ := hb
  cases a with
  | sequence vs =>
      rw [Value.move_sequence] at hask ⊢
      cases b with
      | number d => exact .ok (elementAt_related ⟨rfl, Value.admitted_sequence.mp ha⟩ d)
      | _ => exact hask
  | record fs =>
      rw [Value.move_record] at hask ⊢
      cases b with
      | string k =>
          obtain ⟨hmoved, hadmitted⟩ := lookup_related k ha
          refine .ok ?_
          rw [hmoved]
          cases hfind : fs.lookup k with
          | none => exact alike_plain rfl
          | some v => exact ⟨rfl, hadmitted v hfind⟩
      | _ => exact hask
  | primitive p =>
      cases p with
      | tables =>
          cases b with
          | string k =>
              change Except.Related S.Alike S.Alike
                (if k = "unpack" then .ok (.primitive .unpack) else .ok .null)
                (if k = "unpack" then .ok (.primitive .unpack) else .ok .null)
              split
              · exact .ok (alike_plain rfl)
              · exact .ok (alike_plain rfl)
          | _ => exact hask
      | _ => exact hask
  | _ => exact hask

theorem member_related
    {a a' b b' : Value} (ha : S.Alike a a') (hb : S.Alike b b') :
    S.Rel S.Alike (rt.member a b) (rt.member a' b') :=
  inspect fun w => memberOf_related w ha hb

theorem operate_related
    (op : BinaryOp) {a a' b b' : Value} (ha : S.Alike a a') (hb : S.Alike b b') :
    S.Rel S.Alike (rt.operate op a b) (rt.operate op a' b') := by
  have hask : S.Rel S.Alike (rt.ask (.operation op a b)) (rt.ask (.operation op a' b')) :=
    ask_related (by rw [Query.seen, Query.seen, Alike.seen_eq ha, Alike.seen_eq hb])
  unfold Runtime.operate
  rw [Alike.isNull_eq ha, Alike.isNull_eq hb]
  cases op with
  | eq | ne =>
      dsimp only
      split
      · exact S.pure (alike_plain rfl)
      · exact hask
  | _ => exact hask

theorem combine_related
    {op : BinaryOp} {a a' : Value} {m m' : Run W Value}
    (ha : S.Alike a a') (hm : S.Rel S.Alike m m') :
    S.Rel S.Alike (rt.combine op a m) (rt.combine op a' m') := by
  unfold Runtime.combine
  rw [Alike.truthy_eq ha rt]
  cases op with
  | and =>
      dsimp only
      split
      · exact hm
      · exact S.pure ha
  | or =>
      dsimp only
      split
      · exact S.pure ha
      · exact hm
  | _ => exact S.bind hm fun _ _ hb => operate_related _ ha hb

theorem applyUnary_related
    (op : UnaryOp) {v v' : Value} (hv : S.Alike v v') :
    S.Rel S.Alike (rt.applyUnary op v) (rt.applyUnary op v') := by
  cases op with
  | not =>
      rw [Runtime.applyUnary, Runtime.applyUnary, Alike.truthy_eq hv rt]
      exact S.pure (alike_plain rfl)
  | neg => exact ask_related (by rw [Query.seen, Query.seen, Alike.seen_eq hv])

theorem foreignElements_related
    (w : W) {v v' : Value} (hv : S.Alike v v') :
    Except.Related S.Alike S.AllAlike (rt.foreignElements w v) (rt.foreignElements w v') := by
  rw [Runtime.foreignElements, Runtime.foreignElements, Alike.seen_eq hv]
  cases rt.elements w v.seen with
  | ok ds => exact .ok (.data ds)
  | error d => exact .error (alike_datum d)

theorem elementsOf_related
    (w : W) {v v' : Value} (hv : S.Alike v v') :
    Except.Related S.Alike S.AllAlike (rt.elementsOf w v) (rt.elementsOf w v') := by
  have hforeign : Except.Related S.Alike S.AllAlike
      (rt.foreignElements w v) (rt.foreignElements w v') := foreignElements_related w hv
  obtain ⟨rfl, hv⟩ := hv
  cases v with
  | sequence vs =>
      rw [Value.move_sequence]
      exact .ok ⟨rfl, Value.admitted_sequence.mp hv⟩
  | _ => exact hforeign

theorem spread_related
    (w : W) {v v' : Value} (slots : Nat) (hv : S.Alike v v') :
    Except.Related S.Alike S.AllAlike (rt.spread w v slots) (rt.spread w v' slots) := by
  apply (elementsOf_related w hv).bind
  rintro vs _ ⟨rfl, hvs⟩
  rw [List.length_map]
  cases rt.mismatch vs.length slots with
  | some d => exact .error (alike_datum d)
  | none => exact .ok ⟨rfl, hvs⟩

mutual

theorem takeApart_related
    (w : W) (p : Pattern) {v v' : Value} (hv : S.Alike v v') :
    Except.Related S.Alike S.AllAlike (rt.takeApart w p v) (rt.takeApart w p v') := by
  match p with
  | .name _ =>
      rw [Runtime.takeApart, Runtime.takeApart]
      exact .ok (.singleton hv)
  | .tuple ps =>
      rw [Runtime.takeApart, Runtime.takeApart]
      apply (spread_related w ps.length hv).bind
      intro vs vs' hvs
      exact takeApartList_related w ps hvs

theorem takeApartList_related
    (w : W) (ps : List Pattern) {vs vs' : List Value} (hvs : S.AllAlike vs vs') :
    Except.Related S.Alike S.AllAlike (rt.takeApartList w ps vs) (rt.takeApartList w ps vs') := by
  match ps with
  | [] =>
      rw [Runtime.takeApartList, Runtime.takeApartList]
      exact .ok .nil
  | p :: ps =>
      rw [Runtime.takeApartList, Runtime.takeApartList]
      apply (takeApart_related w p hvs.first).bind
      intro us us' hus
      apply (takeApartList_related w ps hvs.tail).bind
      intro ts ts' hts
      exact .ok (hus.append hts)

end

theorem enter_related (i : Nat) : S.Rel S.AllAlike (rt.enter i) (rt.enter i) := by
  refine S.act fun w => ⟨?_, rfl, rfl⟩
  dsimp only
  cases (rt.resource i).acquireFails with
  | some e => exact .error (alike_plain rfl)
  | none => exact .ok (.singleton (alike_datum _))

theorem leave_related
    (i : Nat) {v v' : Value} (hv : S.Alike v v') :
    S.Rel S.AllAlike (rt.leave i v) (rt.leave i v') := by
  obtain ⟨rfl, -⟩ := hv
  refine S.act fun w => ⟨?_, rfl, by rw [Value.asFault_move]⟩
  dsimp only
  cases (rt.resource i).onRelease with
  | replace e => exact .error (alike_plain rfl)
  | handled | propagate => exact .ok (.data _)

theorem invoke_related
    (he : S.Engines eng eng') {o o' : Value} {method : String} {args args' : List Value}
    (ho : S.Alike o o') (hargs : S.AllAlike args args') :
    S.Rel S.AllAlike (rt.invoke eng o method args) (rt.invoke eng' o' method args') := by
  have htell : S.Rel S.AllAlike (rt.tell (.invoke o method args))
      (rt.tell (.invoke o' method args')) :=
    tell_related (by rw [Command.seen, Command.seen, Alike.seen_eq ho, hargs.seen_eq])
  have hself := ho
  obtain ⟨rfl, ho⟩ := ho
  cases o with
  | manager i =>
      change S.Rel S.AllAlike
        (if method = rt.enterMethod then rt.enter i
          else if method = rt.exitMethod then rt.leave i (Value.first args)
          else rt.tell (.invoke (.manager i) method args))
        (if method = rt.enterMethod then rt.enter i
          else if method = rt.exitMethod then rt.leave i (Value.first args')
          else rt.tell (.invoke (.manager i) method args'))
      split
      · exact enter_related i
      · split
        · exact leave_related i hargs.first
        · exact htell
  | record fs =>
      obtain ⟨hmoved, hadmitted⟩ := lookup_related method ho
      rw [Value.move_record] at hself htell ⊢
      unfold Runtime.invoke
      dsimp only
      rw [hmoved]
      cases hfind : fs.lookup method with
      | none => exact htell
      | some f =>
          apply he.call ⟨rfl, hadmitted f hfind⟩
          split
          · exact .cons hself hargs
          · exact hargs
  | _ => exact htell

theorem adjust_related
    {vs vs' : List Value} (h : S.AllAlike vs vs') : S.AllAlike (rt.adjust vs) (rt.adjust vs') := by
  unfold Runtime.adjust
  split
  · exact h
  · exact .singleton h.first

end Simulation

/-! ## Expressions -/

mutual

theorem Expr.results_related
    (he : S.Engines eng eng') (e : Expr) (h : S.Agree e.names env env') :
    S.Rel S.AllAlike (e.results rt eng env) (e.results rt eng' env') := by
  match e with
  | .literal l =>
      rw [Expr.results, Expr.results]
      cases l <;> exact S.pure (.singleton (Simulation.alike_plain rfl))
  | .ident x =>
      rw [Expr.names] at h
      rw [Expr.results, Expr.results]
      exact Simulation.singletonOf (Simulation.readName_related h.head)
  | .binary l op r =>
      rw [Expr.names] at h
      rw [Expr.results, Expr.results]
      apply S.bind (Simulation.one (Expr.results_related he l h.left))
      intro a a' ha
      have hr := Simulation.one (Expr.results_related he r h.right)
      exact Simulation.singletonOf (Simulation.combine_related ha hr)
  | .unary op e =>
      rw [Expr.names] at h
      rw [Expr.results, Expr.results]
      apply S.bind (Simulation.one (Expr.results_related he e h))
      intro a a' ha
      exact Simulation.singletonOf (Simulation.applyUnary_related op ha)
  | .call f args =>
      rw [Expr.names] at h
      rw [Expr.results, Expr.results]
      apply S.bind (Simulation.one (Expr.results_related he f h.left))
      intro g g' hg
      apply S.bind (Expr.resultsList_related he args h.right)
      intro vs vs' hvs
      apply S.bind (he.call hg hvs)
      intro us us' hus
      exact S.pure (Simulation.adjust_related hus)
  | .methodCall r m args =>
      rw [Expr.names] at h
      rw [Expr.results, Expr.results]
      apply S.bind (Simulation.one (Expr.results_related he r h.left))
      intro o o' ho
      apply S.bind (Expr.resultsList_related he args h.right)
      intro vs vs' hvs
      apply S.bind (Simulation.invoke_related he ho hvs)
      intro us us' hus
      exact S.pure (Simulation.adjust_related hus)
  | .member o p _ =>
      rw [Expr.names] at h
      rw [Expr.results, Expr.results]
      apply S.bind (Simulation.one (Expr.results_related he o h.left))
      intro a a' ha
      apply S.bind (Simulation.one (Expr.results_related he p h.right))
      intro b b' hb
      exact Simulation.singletonOf (Simulation.member_related ha hb)
  | .array es =>
      rw [Expr.names] at h
      rw [Expr.results, Expr.results]
      apply S.bind (Expr.resultsList_related he es h)
      intro vs vs' hvs
      exact S.pure (.singleton hvs.sequence)
  | .object ps =>
      rw [Expr.names] at h
      rw [Expr.results, Expr.results]
      apply S.bind (Expr.resultsPairs_related he ps h)
      intro fs fs' hfs
      exact S.pure (.singleton hfs)
  | .function f =>
      rw [Expr.names] at h
      rw [Expr.results, Expr.results]
      exact S.pure (.singleton h.closure)
  | .conditional t a b =>
      rw [Expr.names] at h
      rw [Expr.results, Expr.results]
      apply S.bind (Simulation.one (Expr.results_related he t h.left.left))
      intro c c' hc
      rw [Simulation.Alike.truthy_eq hc rt]
      apply Simulation.singletonOf
      split
      · exact Simulation.one (Expr.results_related he a h.left.right)
      · exact Simulation.one (Expr.results_related he b h.right)
  | .assign t e =>
      rw [Expr.names] at h
      rw [Expr.results, Expr.results]
      exact Expr.assignTo_related he t h.left (Simulation.one (Expr.results_related he e h.right))
  | .await e =>
      rw [Expr.names] at h
      rw [Expr.results, Expr.results]
      exact Expr.results_related he e h

theorem Expr.assignTo_related
    {m m' : Run W Value} (he : S.Engines eng eng') (t : Expr) (h : S.Agree t.names env env')
    (hm : S.Rel S.Alike m m') :
    S.Rel S.AllAlike (Expr.assignTo rt eng env m t) (Expr.assignTo rt eng' env' m' t) := by
  match t with
  | .ident x =>
      rw [Expr.names] at h
      rw [Expr.assignTo, Expr.assignTo]
      apply S.bind hm
      intro v v' hv
      apply S.bind (Simulation.assignName_related h.head hv)
      intro _ _ _
      exact S.pure (.singleton hv)
  | .member o p _ =>
      rw [Expr.names] at h
      rw [Expr.assignTo, Expr.assignTo]
      apply S.bind (Simulation.one (Expr.results_related he o h.left))
      intro a a' ha
      apply S.bind (Simulation.one (Expr.results_related he p h.right))
      intro b b' hb
      apply S.bind hm
      intro v v' hv
      have hseen : (Command.setMember a' b' v').seen = (Command.setMember a b v).seen := by
        rw [Command.seen, Command.seen, Simulation.Alike.seen_eq ha,
          Simulation.Alike.seen_eq hb, Simulation.Alike.seen_eq hv]
      apply S.bind (Simulation.tell_related hseen)
      intro _ _ _
      exact S.pure (.singleton hv)
  | .literal _ | .binary .. | .unary .. | .call .. | .methodCall .. | .array _ | .object _
  | .function _ | .conditional .. | .assign .. | .await _ =>
      simp only [Expr.assignTo]
      exact S.fail

theorem Expr.resultsList_related
    (he : S.Engines eng eng') (es : List Expr) (h : S.Agree (Expr.namesList es) env env') :
    S.Rel S.AllAlike (Expr.resultsList rt eng env es) (Expr.resultsList rt eng' env' es) := by
  match es with
  | [] =>
      rw [Expr.resultsList, Expr.resultsList]
      exact S.pure .nil
  | e :: es =>
      rw [Expr.namesList] at h
      rw [Expr.resultsList, Expr.resultsList]
      have hhead := Expr.results_related he e h.left
      split
      · exact hhead
      · apply S.bind (Simulation.one hhead)
        intro v v' hv
        apply S.bind (Expr.resultsList_related he es h.right)
        intro vs vs' hvs
        exact S.pure (.cons hv hvs)

theorem Expr.resultsPairs_related
    (he : S.Engines eng eng') (ps : List (String × Expr))
    (h : S.Agree (Expr.namesPairs ps) env env') :
    S.Rel (fun fs fs' => S.Alike (.record fs) (.record fs'))
      (Expr.resultsPairs rt eng env ps) (Expr.resultsPairs rt eng' env' ps) := by
  match ps with
  | [] =>
      rw [Expr.resultsPairs, Expr.resultsPairs]
      exact S.pure (Simulation.alike_plain rfl)
  | (k, e) :: ps =>
      rw [Expr.namesPairs] at h
      rw [Expr.resultsPairs, Expr.resultsPairs]
      apply S.bind (Simulation.one (Expr.results_related he e h.left))
      intro v v' hv
      apply S.bind (Expr.resultsPairs_related he ps h.right)
      intro fs fs' hfs
      exact S.pure (Simulation.alike_record_cons k hv hfs)

end

theorem Expr.valueOption_related
    (he : S.Engines eng eng') {missing : Value} (hmissing : missing.closures = [])
    (e : Option Expr) (h : S.Agree (Expr.namesOption e) env env') :
    S.Rel S.Alike
      (Expr.valueOption rt eng env missing e) (Expr.valueOption rt eng' env' missing e) := by
  cases e with
  | none => exact S.pure (Simulation.alike_plain hmissing)
  | some e =>
      rw [Expr.namesOption] at h
      exact Simulation.one (Expr.results_related he e h)

/-! ## Statements -/

namespace Stmt

/-! The loops and the guarded region, from what is known about their parts. -/

theorem exec_whileLoop_related
    (he : S.Engines eng eng') {t : Expr} {b : Stmt} (ht : S.Agree t.names env env')
    (hb : S.Rel S.Finishes (b.exec rt eng env) (b.exec rt eng' env')) :
    S.Rel S.Finishes ((whileLoop t b).exec rt eng env) ((whileLoop t b).exec rt eng' env') := by
  rw [exec, exec]
  apply Simulation.statementOf
  apply he.iterate
  apply S.bind (Simulation.one (Expr.results_related he t ht))
  intro v v' hv
  rw [Simulation.Alike.truthy_eq hv rt]
  split
  · exact Simulation.turnOf hb
  · exact S.pure Simulation.Ends.normal.turn

theorem exec_forLoop_related
    (he : S.Engines eng eng') {i : Option Stmt} {t u : Option Expr} {b : Stmt}
    (hi : S.Rel S.Finishes (execOption rt eng env i) (execOption rt eng' env' i))
    (ht : S.Agree (Expr.namesOption t) env env') (hu : S.Agree (Expr.namesOption u) env env')
    (hb : ∀ ds ds', S.Declares ds ds' →
      S.Rel S.Finishes (b.exec rt eng (env.extend ds)) (b.exec rt eng' (env'.extend ds'))) :
    S.Rel S.Finishes ((forLoop i t u b).exec rt eng env) ((forLoop i t u b).exec rt eng' env') := by
  rw [exec, exec]
  apply S.bind hi
  rintro ⟨c, ds⟩ ⟨_, ds'⟩ ⟨⟨rfl, hc⟩, hds⟩
  cases c with
  | returned vs | broke | continued => exact S.pure (Simulation.Ends.finishes ⟨rfl, hc⟩)
  | normal =>
      apply Simulation.statementOf
      apply he.iterate
      apply S.bind (Expr.valueOption_related he rfl t (ht.extend hds))
      intro v v' hv
      rw [Simulation.Alike.truthy_eq hv rt]
      split
      · apply S.bind (hb ds ds' hds)
        rintro r r' ⟨hr, -⟩
        obtain ⟨hturn, hended⟩ := hr.afterTurn
        rw [hturn]
        cases hc : r.1.afterTurn with
        | some d => exact S.pure ⟨rfl, hc ▸ hended⟩
        | none =>
            apply S.bind (Expr.valueOption_related he rfl u (hu.extend hds))
            intro _ _ _
            exact S.pure .none
      · exact S.pure Simulation.Ends.normal.turn

theorem exec_forEach_related
    (he : S.Engines eng eng') {x : String} {i : Expr} {b : Stmt} {o : Option Nat}
    (hx : S.Admits x o) (hi : S.Agree i.names env env')
    (hb : ∀ n n', n' = S.place x n ∧ S.Admits x (some n) →
      S.Rel S.Finishes (b.exec rt eng (env.set x n)) (b.exec rt eng' (env'.set x n'))) :
    S.Rel S.Finishes ((forEach x i b).exec rt eng env) ((forEach x i b).exec rt eng' env') := by
  rw [exec, exec]
  apply S.bind (Simulation.one (Expr.results_related he i hi))
  intro v v' hv
  apply S.bind (Simulation.inspect fun w => Simulation.elementsOf_related w hv)
  intro vs vs' hvs
  apply Simulation.statementOf
  refine Simulation.forEach (fun u u' hu => ?_) hvs
  apply S.bind (S.declare hx hu)
  intro n n' hn
  exact Simulation.turnOf (hb n n' hn)

theorem exec_tryCatch_related
    {b : Stmt} {x : Option String} {h f : Option Stmt}
    (hb : S.Rel S.Finishes (b.exec rt eng env) (b.exec rt eng' env'))
    (hh : ∀ v v', S.Alike v v' →
      S.Rel S.Ends (handle rt eng env x h v) (handle rt eng' env' x h v'))
    (hf : S.Rel S.Finishes (execOption rt eng env f) (execOption rt eng' env' f)) :
    S.Rel S.Finishes ((tryCatch b x h f).exec rt eng env)
      ((tryCatch b x h f).exec rt eng' env') := by
  rw [exec, exec]
  exact Simulation.statementOf
    (Simulation.guarded (Simulation.completionOf hb) hh (Simulation.completionOf hf))

theorem exec_function_related
    {f : Func} (h : S.Agree (f.name :: f.names) env env') :
    S.Rel S.Finishes ((function f).exec rt eng env) ((function f).exec rt eng' env') := by
  rw [exec, exec]
  apply S.bind (S.declare h.head.1 (Simulation.alike_plain rfl))
  rintro n _ ⟨rfl, hn⟩
  apply S.bind (S.write hn (h.tail.set ⟨rfl, hn⟩).closure)
  intro _ _ _
  exact S.pure (Simulation.Declares.cons ⟨rfl, hn⟩ ⟨rfl, by simp⟩).finishes

end Stmt

mutual

theorem Stmt.exec_related
    (he : S.Engines eng eng') (env env' : Env) (s : Stmt) (h : S.Agree s.names env env') :
    S.Rel S.Finishes (s.exec rt eng env) (s.exec rt eng' env') := by
  match s with
  | .expr e =>
      rw [Stmt.names] at h
      rw [Stmt.exec, Stmt.exec]
      apply S.bind (Expr.results_related he e h)
      intro _ _ _
      exact S.pure Simulation.Ends.normal.finishes
  | .declare x i _ =>
      rw [Stmt.names] at h
      rw [Stmt.exec, Stmt.exec]
      apply S.bind (Expr.valueOption_related he rfl i h.tail)
      intro v v' hv
      apply S.bind (S.declare h.head.1 hv)
      intro n n' hn
      exact S.pure (Simulation.Declares.cons hn ⟨rfl, by simp⟩).finishes
  | .destructure p i =>
      rw [Stmt.names] at h
      rw [Stmt.exec, Stmt.exec]
      apply S.bind (Simulation.one (Expr.results_related he i h.right))
      intro v v' hv
      apply S.bind (Simulation.inspect fun w => Simulation.takeApart_related w p hv)
      intro vs vs' hvs
      apply S.bind (Simulation.declareAll (fun x hx => ⟨_, (h.left x hx).1⟩) hvs)
      intro ds ds' hds
      exact S.pure hds.finishes
  | .block b =>
      rw [Stmt.names] at h
      rw [Stmt.exec, Stmt.exec]
      exact Simulation.statementOf (Stmt.execList_related he env env' b h)
  | .ifElse t a b =>
      rw [Stmt.names] at h
      rw [Stmt.exec, Stmt.exec]
      apply S.bind (Simulation.one (Expr.results_related he t h.left.left))
      intro v v' hv
      rw [Simulation.Alike.truthy_eq hv rt]
      split
      · exact Simulation.branchOf (Stmt.exec_related he env env' a h.left.right)
      · exact Simulation.branchOf (Stmt.execOption_related he env env' b h.right)
  | .whileLoop t b =>
      rw [Stmt.names] at h
      exact Stmt.exec_whileLoop_related he h.left (Stmt.exec_related he env env' b h.right)
  | .forLoop i t u b =>
      rw [Stmt.names] at h
      apply Stmt.exec_forLoop_related he (Stmt.execOption_related he env env' i h.left.left.left)
        h.left.left.right h.left.right
      intro ds ds' hds
      exact Stmt.exec_related he _ _ b (h.right.extend hds)
  | .forEach x i b =>
      rw [Stmt.names] at h
      apply Stmt.exec_forEach_related he h.left.head.1 h.left.tail
      intro n n' hn
      exact Stmt.exec_related he _ _ b (h.right.set hn)
  | .ret none =>
      rw [Stmt.exec, Stmt.exec]
      exact S.pure (Simulation.Ends.returned .nil).finishes
  | .ret (some e) =>
      rw [Stmt.names, Expr.namesOption] at h
      rw [Stmt.exec, Stmt.exec]
      apply S.bind (Expr.results_related he e h)
      intro vs vs' hvs
      exact S.pure (Simulation.Ends.returned hvs).finishes
  | .breakLoop =>
      rw [Stmt.exec, Stmt.exec]
      exact S.pure Simulation.Ends.broke.finishes
  | .continueLoop =>
      rw [Stmt.exec, Stmt.exec]
      exact S.pure Simulation.Ends.continued.finishes
  | .throw e =>
      rw [Stmt.names] at h
      rw [Stmt.exec, Stmt.exec]
      apply S.bind (Simulation.one (Expr.results_related he e h))
      intro v v' hv
      exact Simulation.raise hv
  | .tryCatch b x c f =>
      rw [Stmt.names] at h
      apply Stmt.exec_tryCatch_related (Stmt.exec_related he env env' b h.left.left.right)
      · intro v v' hv
        exact Stmt.handle_related he env env' x c v v' h.left.left.left h.left.right hv
      · exact Stmt.execOption_related he env env' f h.right
  | .function f =>
      rw [Stmt.names] at h
      exact Stmt.exec_function_related h
  | .holding _ =>
      rw [Stmt.exec, Stmt.exec]
      exact S.fail

theorem Stmt.execList_related
    (he : S.Engines eng eng') (env env' : Env) (ss : List Stmt)
    (h : S.Agree (Stmt.namesList ss) env env') :
    S.Rel S.Ends (Stmt.execList rt eng env ss) (Stmt.execList rt eng' env' ss) := by
  match ss with
  | [] =>
      rw [Stmt.execList, Stmt.execList]
      exact S.pure .normal
  | s :: ss =>
      rw [Stmt.namesList] at h
      rw [Stmt.execList, Stmt.execList]
      apply S.bind (Stmt.exec_related he env env' s h.left)
      rintro ⟨c, ds⟩ ⟨_, ds'⟩ ⟨⟨rfl, hc⟩, hds⟩
      cases c with
      | normal => exact Stmt.execList_related he _ _ ss (h.right.extend hds)
      | returned vs | broke | continued => exact S.pure ⟨rfl, hc⟩

theorem Stmt.execOption_related
    (he : S.Engines eng eng') (env env' : Env) (s : Option Stmt)
    (h : S.Agree (Stmt.namesOption s) env env') :
    S.Rel S.Finishes (Stmt.execOption rt eng env s) (Stmt.execOption rt eng' env' s) := by
  match s with
  | none =>
      rw [Stmt.execOption, Stmt.execOption]
      exact S.pure Simulation.Ends.normal.finishes
  | some s =>
      rw [Stmt.namesOption] at h
      rw [Stmt.execOption, Stmt.execOption]
      exact Stmt.exec_related he env env' s h

theorem Stmt.handle_related
    (he : S.Engines eng eng') (env env' : Env) (x : Option String) (s : Option Stmt)
    (v v' : Value) (hx : S.Agree x.toList env env') (h : S.Agree (Stmt.namesOption s) env env')
    (hv : S.Alike v v') :
    S.Rel S.Ends (Stmt.handle rt eng env x s v) (Stmt.handle rt eng' env' x s v') := by
  match s with
  | none =>
      rw [Stmt.handle, Stmt.handle]
      exact Simulation.raise hv
  | some s =>
      rw [Stmt.namesOption] at h
      cases x with
      | none =>
          rw [Stmt.handle, Stmt.handle]
          exact Simulation.completionOf (Stmt.exec_related he env env' s h)
      | some x =>
          rw [Stmt.handle, Stmt.handle]
          apply S.bind (S.declare hx.head.1 hv)
          intro n n' hn
          exact Simulation.completionOf (Stmt.exec_related he _ _ s (h.set hn))

end

/-! ## Engines -/

theorem Runtime.apply_closure_related
    (he : S.Engines eng eng') {f : Func} {captured captured' : Env} {args args' : List Value}
    (hf : S.Alike (.closure f captured) (.closure f captured')) (hargs : S.AllAlike args args') :
    S.Rel S.AllAlike (rt.apply eng (.closure f captured) args)
      (rt.apply eng' (.closure f captured') args') := by
  have hagree : S.Agree f.names captured captured' := by
    obtain ⟨heq, hf⟩ := hf
    rw [Value.move_closure] at heq
    cases heq
    intro x hx
    exact ⟨Value.admitted_closure.mp hf x hx, Env.moved_of_mem _ _ hx⟩
  obtain ⟨name, params, body, isAsync⟩ := f
  rw [Func.names] at hagree
  rw [Runtime.apply, Runtime.apply]
  apply S.bind (Simulation.declareAll (fun x hx => ⟨_, (hagree.left x hx).1⟩) hargs)
  intro ds ds' hds
  apply S.bind (Stmt.execList_related he _ _ body (hagree.right.extend hds))
  rintro c _ ⟨rfl, hc⟩
  cases c with
  | normal => exact S.pure .nil
  | returned vs => exact S.pure ⟨rfl, hc⟩
  | broke | continued => exact S.fail

theorem Runtime.apply_protectedCall_related
    (he : S.Engines eng eng') {g g' : Value} {args args' : List Value}
    (hg : S.Alike g g') (hargs : S.AllAlike args args') :
    S.Rel S.AllAlike (rt.apply eng (.primitive .protectedCall) (g :: args))
      (rt.apply eng' (.primitive .protectedCall) (g' :: args')) := by
  rw [Runtime.apply, Runtime.apply]
  apply S.bind (S.attempt (he.call hg hargs))
  intro r r' hr
  cases hr with
  | ok hvs => exact S.pure (.cons (Simulation.alike_plain rfl) hvs)
  | error hv => exact S.pure (.cons (Simulation.alike_plain rfl) (.singleton hv))

theorem Runtime.apply_related
    (he : S.Engines eng eng') {f f' : Value} {args args' : List Value}
    (hf : S.Alike f f') (hargs : S.AllAlike args args') :
    S.Rel S.AllAlike (rt.apply eng f args) (rt.apply eng' f' args') := by
  have htell : S.Rel S.AllAlike (rt.tell (.apply f args)) (rt.tell (.apply f' args')) :=
    Simulation.tell_related
      (by rw [Command.seen, Command.seen, Simulation.Alike.seen_eq hf, hargs.seen_eq])
  have hself := hf
  obtain ⟨rfl, hf⟩ := hf
  cases f with
  | closure g captured =>
      rw [Value.move_closure] at hself ⊢
      exact Runtime.apply_closure_related he hself hargs
  | primitive p =>
      obtain ⟨rfl, hvs⟩ := hargs
      cases args with
      | nil => cases p <;> exact htell
      | cons v vs =>
          rw [List.forall_mem_cons] at hvs
          cases p with
          | protectedCall =>
              exact Runtime.apply_protectedCall_related he ⟨rfl, hvs.1⟩ ⟨rfl, hvs.2⟩
          | tables => exact htell
          | unpack =>
              cases v with
              | sequence us =>
                  rw [List.map_cons, Value.move_sequence]
                  exact S.pure ⟨rfl, Value.admitted_sequence.mp hvs.1⟩
              | _ => exact htell
  | _ => exact htell

/-- The turn that an engine adds to those of another. -/
theorem Simulation.iterate_succ_related
    {n n' : Nat} (he : S.Engines (rt.engine n) (rt.engine n'))
    {turn turn' : Run W (Option Completion)} (hturn : S.Rel S.Turns turn turn') :
    S.Rel S.Ends ((rt.engine (n + 1)).iterate turn) ((rt.engine (n' + 1)).iterate turn') := by
  apply S.bind hturn
  rintro ended _ ⟨rfl, hended⟩
  cases ended with
  | some c => exact S.pure ⟨rfl, hended c rfl⟩
  | none => exact he.iterate hturn

theorem Simulation.engine_succ_related
    {n n' : Nat} (he : S.Engines (rt.engine n) (rt.engine n')) :
    S.Engines (rt.engine (n + 1)) (rt.engine (n' + 1)) where
  call hf hargs := Runtime.apply_related he hf hargs
  iterate hturn := Simulation.iterate_succ_related he hturn

/-- Engines with the same number of steps are related. -/
theorem Simulation.engine_related (n : Nat) : S.Engines (rt.engine n) (rt.engine n) := by
  induction n with
  | zero =>
      constructor
      · intro f f' args args' _ _
        exact S.fail
      · intro turn turn' _
        exact S.fail
  | succ n ih => exact Simulation.engine_succ_related ih

end Bracket
