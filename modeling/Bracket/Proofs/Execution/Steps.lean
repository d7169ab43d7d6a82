import Bracket.Proofs.Execution.Placement

/-!
# Single steps

How single expressions and statements run when what they read is known.
-/

namespace Bracket

variable {W : Type} {rt : Runtime W} {eng : Engine W} {env : Env} {s s' : State W}
  {es : List Event}

theorem Expr.results_ident_of_read
    {x : String} {v : Value} (h : rt.readName env x s = some ⟨.ok v, s, []⟩) :
    (Expr.ident x).results rt eng env s = some ⟨.ok [v], s, []⟩ := by
  rw [Expr.results, Run.bind_of_silent _ h, Run.pure_apply]

/-! ## Variables that hold a value -/

/-- The name means a variable that holds the value. -/
def Env.Holds (env : Env) (s : State W) (x : String) (v : Value) : Prop :=
  ∃ i m, env x = some i ∧ (s.vars x)[i]? = some ⟨v, m⟩

/-- The name means a variable that an earlier state did not have and that holds the
value. -/
def Env.HoldsNew (env : Env) (s₀ s : State W) (x : String) (v : Value) : Prop :=
  ∃ i m, env x = some i ∧ (s₀.vars x).length ≤ i ∧ (s.vars x)[i]? = some ⟨v, m⟩

/-- The name means variable `i`, which holds the value and may be assigned. -/
structure Env.Assignable (env : Env) (s : State W) (x : String) (i : Nat) (v : Value) : Prop where
  env : env x = some i
  vars : (s.vars x)[i]? = some ⟨v, true⟩

namespace Env.Holds

variable {env' : Env} {x : String} {v : Value} {Q : String → Prop}

theorem declare
    (env : Env) (s : State W) (m : Bool) (x : String) (v : Value) :
    Env.Holds (env.set x (s.vars x).length) (s.declare m x v) x v :=
  ⟨(s.vars x).length, m, Env.set_self env x _, by simp⟩

/-- Further variables do not matter. -/
theorem of_adds
    (h : env.Holds s x v) (henv : env' x = env x) (hs : s.Adds Q s') : env'.Holds s' x v := by
  obtain ⟨i, m, hi, hv⟩ := h
  have hlt : i < (s.vars x).length := (List.getElem?_eq_some_iff.mp hv).1
  exact ⟨i, m, henv.trans hi, (hs.vars_of_lt hlt).trans hv⟩

/-- The declaration of another variable does not matter. -/
theorem after_declare
    {y : String} (h : env.Holds s x v) (hne : x ≠ y) (m : Bool) (u : Value) :
    Env.Holds (env.set y (s.vars y).length) (s.declare m y u) x v :=
  h.of_adds (Env.set_of_ne env _ hne) (.declare (Q := (· = y)) rfl m u)

/-- The assignment of another variable does not matter. -/
theorem after_assign
    {y : String} (h : env.Holds s x v) (hne : x ≠ y) (i : Nat) (u : Value) :
    env.Holds (s.assign y i u) x v := by
  obtain ⟨j, m, hj, hv⟩ := h
  exact ⟨j, m, hj, by rw [State.assign_vars_of_ne s i u hne, hv]⟩

theorem results_ident
    (h : env.Holds s x v) (rt : Runtime W) (eng : Engine W) :
    (Expr.ident x).results rt eng env s = some ⟨.ok [v], s, []⟩ := by
  obtain ⟨i, m, hi, hv⟩ := h
  have hread : rt.readName env x s = some ⟨.ok v, s, []⟩ := by
    simp [Runtime.readName, hi, Run.read, hv]
  exact Expr.results_ident_of_read hread

end Env.Holds

namespace Env.HoldsNew

variable {env' : Env} {s₀ : State W} {x : String} {v : Value} {Q : String → Prop}

theorem declare
    (env : Env) (s : State W) (m : Bool) (x : String) (v : Value) :
    Env.HoldsNew (env.set x (s.vars x).length) s (s.declare m x v) x v :=
  ⟨(s.vars x).length, m, Env.set_self env x _, Nat.le_refl _, by simp⟩

theorem holds (h : env.HoldsNew s₀ s x v) : env.Holds s x v := by
  obtain ⟨i, m, hi, -, hv⟩ := h
  exact ⟨i, m, hi, hv⟩

/-- Further variables do not matter. -/
theorem of_adds
    (h : env.HoldsNew s₀ s x v) (henv : env' x = env x) (hs : s.Adds Q s') :
    env'.HoldsNew s₀ s' x v := by
  obtain ⟨i, m, hi, hnew, hv⟩ := h
  have hlt : i < (s.vars x).length := (List.getElem?_eq_some_iff.mp hv).1
  exact ⟨i, m, henv.trans hi, hnew, (hs.vars_of_lt hlt).trans hv⟩

end Env.HoldsNew

namespace Env.Assignable

variable {x : String} {i : Nat} {v : Value}

theorem holds (h : env.Assignable s x i v) : env.Holds s x v := ⟨i, true, h.env, h.vars⟩

theorem declare
    (env : Env) (s : State W) (x : String) (v : Value) :
    Env.Assignable (env.set x (s.vars x).length) (s.declare true x v) x (s.vars x).length v :=
  ⟨Env.set_self env x _, by simp⟩

/-- The declaration of another variable does not matter. -/
theorem after_declare
    {y : String} (h : env.Assignable s x i v) (hne : x ≠ y) (m : Bool) (u : Value) :
    Env.Assignable (env.set y (s.vars y).length) (s.declare m y u) x i v :=
  ⟨(Env.set_of_ne env _ hne).trans h.env, by rw [State.declare_vars_of_ne s m u hne, h.vars]⟩

theorem assign (h : env.Assignable s x i v) (u : Value) : env.Assignable (s.assign x i u) x i u :=
  ⟨h.env, by rw [State.assign_vars_index, h.vars]; rfl⟩

/-- An assignment to a variable that may be assigned. -/
theorem results_assign
    {u : Value} {e : Expr} (h : env.Assignable s x i v)
    (he : (e.results rt eng env).one s = some ⟨.ok u, s, []⟩) :
    (Expr.assign (.ident x) e).results rt eng env s = some ⟨.ok [u], s.assign x i u, []⟩ := by
  have hassign : rt.assignName env x u s = some ⟨.ok (), s.assign x i u, []⟩ := by
    rw [Runtime.assignName, h.env]
    exact Run.write_of_accepted h.vars rfl u
  rw [Expr.results, Expr.assignTo, Run.bind_of_silent _ he, Run.bind_of_silent _ hassign,
    Run.pure_apply]

end Env.Assignable

/-- A constant is not assigned in a language that has constants: the right side runs,
and the error is thrown. -/
theorem Expr.results_assign_constant
    {x : String} {i : Nat} {v u : Value} {e : Expr} {d : Datum} (hd : rt.constantError = some d)
    (hx : env x = some i) (hv : (s'.vars x)[i]? = some ⟨v, false⟩)
    (he : (e.results rt eng env).one s = some ⟨.ok u, s', es⟩) :
    (Expr.assign (.ident x) e).results rt eng env s = some ⟨.error d.1, s', es⟩ := by
  have hassign : rt.assignName env x u s' = some ⟨.error d.1, s', []⟩ := by
    rw [Runtime.assignName, hx, hd]
    exact Run.write_of_refused hv rfl u
  rw [Expr.results, Expr.assignTo, Run.bind_of_ok _ he, Run.bind_of_error _ hassign]
  simp

theorem Expr.resultsList_singleton
    (e : Expr) : Expr.resultsList rt eng env [e] = e.results rt eng env := by
  simp [Expr.resultsList]

theorem Run.one_of_answer
    {m : Run W (List Value)} {vs : List Value}
    (h : m s = some ⟨.ok vs, s', es⟩) : m.one s = some ⟨.ok (Value.first vs), s', es⟩ := by
  rw [Run.one, Run.bind_of_ok _ h]
  simp

theorem Run.one_of_error
    {m : Run W (List Value)} {v : Value}
    (h : m s = some ⟨.error v, s', es⟩) : m.one s = some ⟨.error v, s', es⟩ :=
  Run.bind_of_error _ h

theorem Expr.results_member
    {o p : Expr} {a b v : Value} (computed : Bool)
    (ho : (o.results rt eng env).one s = some ⟨.ok a, s, []⟩)
    (hp : (p.results rt eng env).one s = some ⟨.ok b, s, []⟩)
    (hv : rt.memberOf s.world a b = .ok v) :
    (Expr.member o p computed).results rt eng env s = some ⟨.ok [v], s, []⟩ := by
  have hmember : rt.member a b s = some ⟨.ok v, s, []⟩ := by
    rw [Runtime.member, Run.act_apply, hv]
  rw [Expr.results, Run.bind_of_silent _ ho, Run.bind_of_silent _ hp,
    Run.bind_of_silent _ hmember, Run.pure_apply]

/-! ## Single statements in front of others -/

theorem Run.completion_of_answer
    {m : Run W (Completion × Declared)} {r : Except Value (Completion × Declared)}
    (h : m s = some ⟨r, s', es⟩) :
    (m >>= fun p => pure p.1) s = some ⟨r.map Prod.fst, s', es⟩ := by
  cases r with
  | error v =>
      rw [Run.bind_of_error _ h]
      rfl
  | ok p =>
      rw [Run.bind_of_ok _ h]
      simp [Except.map]

theorem Stmt.execList_cons_of_normal
    {st : Stmt} {ds : Declared} (rest : List Stmt)
    (h : st.exec rt eng env s = some ⟨.ok (.normal, ds), s', es⟩) :
    Stmt.execList rt eng env (st :: rest) s =
      (Stmt.execList rt eng (env.extend ds) rest s').map (Answer.after es) := by
  rw [Stmt.execList, Run.bind_of_ok _ h]

theorem Stmt.execList_cons_of_silent
    {st : Stmt} {ds : Declared} (rest : List Stmt)
    (h : st.exec rt eng env s = some ⟨.ok (.normal, ds), s', []⟩) :
    Stmt.execList rt eng env (st :: rest) s = Stmt.execList rt eng (env.extend ds) rest s' := by
  rw [Stmt.execList, Run.bind_of_silent _ h]

theorem Stmt.execList_cons_of_error
    {st : Stmt} {v : Value} (rest : List Stmt)
    (h : st.exec rt eng env s = some ⟨.error v, s', es⟩) :
    Stmt.execList rt eng env (st :: rest) s = some ⟨.error v, s', es⟩ := by
  rw [Stmt.execList, Run.bind_of_error _ h]

theorem Stmt.exec_expr_of_ok
    {e : Expr} {vs : List Value}
    (h : e.results rt eng env s = some ⟨.ok vs, s', es⟩) :
    (Stmt.expr e).exec rt eng env s = some ⟨.ok (.normal, []), s', es⟩ := by
  rw [Stmt.exec, Run.bind_of_ok _ h]
  simp

theorem Stmt.exec_expr_of_error
    {e : Expr} {v : Value}
    (h : e.results rt eng env s = some ⟨.error v, s', es⟩) :
    (Stmt.expr e).exec rt eng env s = some ⟨.error v, s', es⟩ := by
  rw [Stmt.exec, Run.bind_of_error _ h]

theorem Stmt.exec_throw
    {e : Expr} {v : Value}
    (h : (e.results rt eng env).one s = some ⟨.ok v, s', []⟩) :
    (Stmt.throw e).exec rt eng env s = some ⟨.error v, s', []⟩ := by
  rw [Stmt.exec, Run.bind_of_silent _ h, Run.raise_apply]

theorem Stmt.exec_ret
    {e : Expr} {vs : List Value}
    (h : e.results rt eng env s = some ⟨.ok vs, s', es⟩) :
    (Stmt.ret (some e)).exec rt eng env s = some ⟨.ok (.returned vs, []), s', es⟩ := by
  rw [Stmt.exec, Run.bind_of_ok _ h]
  simp

theorem Stmt.exec_declare_of_ok
    {x : String} {e : Expr} {v : Value} (mutable : Bool)
    (h : (e.results rt eng env).one s = some ⟨.ok v, s', es⟩) :
    (Stmt.declare x (some e) mutable).exec rt eng env s =
      some ⟨.ok (.normal, [(x, (s'.vars x).length)]), s'.declare mutable x v, es⟩ := by
  rw [Stmt.exec, Expr.valueOption, Run.bind_of_ok _ h,
    Run.bind_of_silent _ (Run.declare_apply mutable x v s')]
  simp

theorem Stmt.exec_declare_of_error
    {x : String} {e : Expr} {v : Value} (mutable : Bool)
    (h : (e.results rt eng env).one s = some ⟨.error v, s', es⟩) :
    (Stmt.declare x (some e) mutable).exec rt eng env s = some ⟨.error v, s', es⟩ := by
  rw [Stmt.exec, Expr.valueOption, Run.bind_of_error _ h]

theorem Expr.one_results_negate
    {e : Expr} {v : Value} (h : (e.results rt eng env).one s = some ⟨.ok v, s', es⟩) :
    ((Expr.negate e).results rt eng env).one s = some ⟨.ok (.bool !rt.truthy v), s', es⟩ := by
  have hresults : (Expr.negate e).results rt eng env s =
      some ⟨.ok [.bool !rt.truthy v], s', es⟩ := by
    rw [Expr.negate, Expr.results, Run.bind_of_ok _ h, Runtime.applyUnary,
      Run.bind_of_silent _ (Run.pure_apply _ s')]
    simp
  exact Run.one_of_answer hresults

theorem Expr.one_results_negate_of_error
    {e : Expr} {v : Value} (h : (e.results rt eng env).one s = some ⟨.error v, s', es⟩) :
    ((Expr.negate e).results rt eng env).one s = some ⟨.error v, s', es⟩ := by
  apply Run.one_of_error
  rw [Expr.negate, Expr.results, Run.bind_of_error _ h]

/-- A conditional statement whose test holds runs its first branch. -/
theorem Stmt.exec_ifElse_of_true
    {test : Expr} {v : Value} {a : Stmt} {s'' : State W} {es' : List Event}
    {r : Except Value (Completion × Declared)} (b : Option Stmt)
    (htest : (test.results rt eng env).one s = some ⟨.ok v, s', es⟩) (hv : rt.truthy v = true)
    (ha : a.exec rt eng env s' = some ⟨r, s'', es'⟩) :
    (Stmt.ifElse test a b).exec rt eng env s =
      some ⟨r.map fun p => (p.1, []), s'', es ++ es'⟩ := by
  rw [Stmt.exec, Run.bind_of_ok _ htest, if_pos hv]
  cases r with
  | error u =>
      rw [Run.bind_of_error _ ha]
      rfl
  | ok p =>
      rw [Run.bind_of_ok _ ha]
      simp [Except.map]

/-- A conditional statement whose test does not hold runs its other branch. -/
theorem Stmt.exec_ifElse_of_false
    {test : Expr} {v : Value} {b : Option Stmt} {s'' : State W} {es' : List Event}
    {r : Except Value (Completion × Declared)} (a : Stmt)
    (htest : (test.results rt eng env).one s = some ⟨.ok v, s', es⟩) (hv : rt.truthy v = false)
    (hb : Stmt.execOption rt eng env b s' = some ⟨r, s'', es'⟩) :
    (Stmt.ifElse test a b).exec rt eng env s =
      some ⟨r.map fun p => (p.1, []), s'', es ++ es'⟩ := by
  rw [Stmt.exec, Run.bind_of_ok _ htest, if_neg (by simp [hv])]
  cases r with
  | error u =>
      rw [Run.bind_of_error _ hb]
      rfl
  | ok p =>
      rw [Run.bind_of_ok _ hb]
      simp [Except.map]

theorem Stmt.exec_ifElse_of_error
    {test : Expr} {v : Value} (a : Stmt) (b : Option Stmt)
    (htest : (test.results rt eng env).one s = some ⟨.error v, s', es⟩) :
    (Stmt.ifElse test a b).exec rt eng env s = some ⟨.error v, s', es⟩ := by
  rw [Stmt.exec, Run.bind_of_error _ htest]

theorem Stmt.exec_block
    {body : List Stmt} {r : Except Value Completion}
    (h : Stmt.execList rt eng env body s = some ⟨r, s', es⟩) :
    (Stmt.block body).exec rt eng env s = some ⟨r.map fun c => (c, []), s', es⟩ := by
  rw [Stmt.exec]
  cases r with
  | error v =>
      rw [Run.bind_of_error _ h]
      rfl
  | ok c =>
      rw [Run.bind_of_ok _ h]
      simp [Except.map]

theorem Stmt.execList_singleton
    {st : Stmt} {r : Except Value (Completion × Declared)}
    (h : st.exec rt eng env s = some ⟨r, s', es⟩) :
    Stmt.execList rt eng env [st] s = some ⟨r.map Prod.fst, s', es⟩ := by
  rw [Stmt.execList]
  cases r with
  | error v =>
      rw [Run.bind_of_error _ h]
      rfl
  | ok p =>
      obtain ⟨c, ds⟩ := p
      rw [Run.bind_of_ok _ h]
      cases c <;> simp [Except.map, Stmt.execList]

theorem Stmt.execList_tryCatch
    {b : Stmt} {x : Option String} {h f : Option Stmt} {r : Except Value Completion}
    (hrun : Run.guarded (b.exec rt eng env >>= fun p => pure p.1) (Stmt.handle rt eng env x h)
      (Stmt.execOption rt eng env f >>= fun p => pure p.1) s = some ⟨r, s', es⟩) :
    Stmt.execList rt eng env [.tryCatch b x h f] s = some ⟨r, s', es⟩ := by
  have hexec : (Stmt.tryCatch b x h f).exec rt eng env s =
      some ⟨r.map fun c => (c, []), s', es⟩ := by
    rw [Stmt.exec]
    cases r with
    | error v =>
        rw [Run.bind_of_error _ hrun]
        rfl
    | ok c =>
        rw [Run.bind_of_ok _ hrun]
        simp [Except.map]
  refine (Stmt.execList_singleton hexec).trans ?_
  cases r <;> rfl

end Bracket
