import Bracket.Proofs.Execution.Steps
import Bracket.Proofs.Lowering.Returns

/-!
# Runs of packed statements

Packed statements run as the statements that they come from, with one difference:
where the original returns results, the packed statements return one table of
them.  A return in a loop initialiser escapes, because packing does not look
there.
-/

namespace Bracket

variable {W α β γ δ : Type}

/-- Answers that differ at most in their results, which are related. -/
inductive Answer.Match (R : α → β → Prop) :
    Option (Answer W α) → Option (Answer W β) → Prop
  | none : Match R none none
  | error (v : Value) (s : State W) (es : List Event) :
      Match R (some ⟨.error v, s, es⟩) (some ⟨.error v, s, es⟩)
  | ok {a : α} {b : β} (s : State W) (es : List Event) :
      R a b → Match R (some ⟨.ok a, s, es⟩) (some ⟨.ok b, s, es⟩)

theorem Answer.Match.after
    {R : α → β → Prop} {a : Option (Answer W α)} {b : Option (Answer W β)}
    (h : Answer.Match R a b) (es : List Event) :
    Answer.Match R (a.map (Answer.after es)) (b.map (Answer.after es)) := by
  cases h with
  | none => exact .none
  | error v s es' => exact .error v s _
  | ok s es' hab => exact .ok s _ hab

theorem Answer.Match.mono
    {R R' : α → β → Prop} {a : Option (Answer W α)} {b : Option (Answer W β)}
    (h : Answer.Match R a b) (hR : ∀ a b, R a b → R' a b) : Answer.Match R' a b := by
  cases h with
  | none => exact .none
  | error v s es => exact .error v s es
  | ok s es hab => exact .ok s es (hR _ _ hab)

namespace Run

/-- Runs whose answers differ at most in their results, which are related. -/
def Matches (R : α → β → Prop) (m : Run W α) (m' : Run W β) : Prop :=
  ∀ s, Answer.Match R (m s) (m' s)

namespace Matches

variable {R : α → β → Prop} {Q : γ → δ → Prop} {m : Run W α} {m' : Run W β}

theorem pure {a : α} {b : β} (h : R a b) : Matches (W := W) R (Pure.pure a) (Pure.pure b) :=
  fun s => .ok s [] h

theorem fail : Matches (W := W) R Run.fail Run.fail := fun _ => .none

theorem raise (v : Value) : Matches (W := W) R (Run.raise v) (Run.raise v) :=
  fun s => .error v s []

theorem bind
    {k : α → Run W γ} {k' : β → Run W δ} (hm : Matches R m m')
    (hk : ∀ a b, R a b → Matches Q (k a) (k' b)) : Matches Q (m >>= k) (m' >>= k') := by
  intro s
  have h := hm s
  rw [bind_apply, bind_apply]
  generalize m s = x at h
  generalize m' s = y at h
  cases h with
  | none => exact .none
  | error v s' es => exact .error v s' es
  | ok s' es hab => exact (hk _ _ hab s').after es

theorem self {R : α → α → Prop} (m : Run W α) (hR : ∀ a, R a a) : Matches R m m := by
  intro s
  match m s with
  | none => exact .none
  | some ⟨.error v, s', es⟩ => exact .error v s' es
  | some ⟨.ok a, s', es⟩ => exact .ok s' es (hR a)

/-- The same run in front of runs that match. -/
theorem behind
    {k : α → Run W γ} {k' : α → Run W δ} (m : Run W α)
    (hk : ∀ a, Matches Q (k a) (k' a)) : Matches Q (m >>= k) (m >>= k') := by
  apply (Matches.self m fun a => Eq.refl a).bind
  rintro a b rfl
  exact hk a

/-- A run and the same run with its result changed at the end. -/
theorem then_pure
    (f : α → β) (m : Run W α) :
    Matches (fun a b => b = f a) m (m >>= fun a => Pure.pure (f a)) := by
  have h : Matches (fun a b => b = f a) (m >>= Pure.pure) (m >>= fun a => Pure.pure (f a)) :=
    .behind m fun _ => .pure rfl
  rwa [bind_pure] at h

theorem mono
    {R' : α → β → Prop} (h : Matches R m m') (hR : ∀ a b, R a b → R' a b) :
    Matches R' m m' :=
  fun s => (h s).mono hR

end Matches

end Run

/-! ## Completions of packed statements -/

/-- How packed statements end where their originals end with a completion.
`found` says whether packing found a return, `escapes` whether there is a return
that it does not look at. -/
inductive Completion.Packed (found escapes : Bool) : Completion → Completion → Prop
  | normal : Packed found escapes .normal .normal
  | broke : Packed found escapes .broke .broke
  | continued : Packed found escapes .continued .continued
  | packed (vs : List Value) :
      found = true → Packed found escapes (.returned vs) (.returned [.sequence vs])
  | escaped (vs : List Value) :
      escapes = true → Packed found escapes (.returned vs) (.returned vs)

/-- The same for how a turn of a loop ends it, if it does. -/
inductive Completion.PackedTurn (found escapes : Bool) :
    Option Completion → Option Completion → Prop
  | none : PackedTurn found escapes none none
  | some {c d : Completion} :
      c.Packed found escapes d → PackedTurn found escapes (some c) (some d)

/-- The same for how a region ends before its handler and its cleanup run. -/
inductive Completion.PackedEnding (found escapes : Bool) :
    Except Value Completion → Except Value Completion → Prop
  | error (v : Value) : PackedEnding found escapes (.error v) (.error v)
  | ok {c d : Completion} :
      c.Packed found escapes d → PackedEnding found escapes (.ok c) (.ok d)

namespace Completion.Packed

variable {found found' escapes escapes' : Bool} {c d : Completion}

theorem mono
    (h : c.Packed found escapes d) (hfound : found = true → found' = true)
    (hescapes : escapes = true → escapes' = true) : c.Packed found' escapes' d := by
  cases h with
  | normal => exact .normal
  | broke => exact .broke
  | continued => exact .continued
  | packed vs h => exact .packed vs (hfound h)
  | escaped vs h => exact .escaped vs (hescapes h)

theorem or_left
    (h : c.Packed found escapes d) : c.Packed (found || found') (escapes || escapes') d :=
  h.mono (fun h => by simp [h]) fun h => by simp [h]

theorem or_right
    (h : c.Packed found escapes d) : c.Packed (found' || found) (escapes' || escapes) d :=
  h.mono (fun h => by simp [h]) fun h => by simp [h]

theorem afterTurn
    (h : c.Packed found escapes d) : PackedTurn found escapes c.afterTurn d.afterTurn := by
  cases h with
  | normal => exact .none
  | broke => exact .some .normal
  | continued => exact .none
  | packed vs h => exact .some (.packed vs h)
  | escaped vs h => exact .some (.escaped vs h)

/-- Where every return may escape, statements may also stay as they are. -/
theorem self (c : Completion) : c.Packed found true c := by
  cases c with
  | normal => exact .normal
  | broke => exact .broke
  | continued => exact .continued
  | returned vs => exact .escaped vs rfl

/-- Where there are no returns, statements may also stay as they are. -/
theorem self_of_not_found
    (h : c.Packed false false d) : c.Packed found escapes c := by
  cases h with
  | normal => exact .normal
  | broke => exact .broke
  | continued => exact .continued
  | packed vs h => exact nomatch h
  | escaped vs h => exact nomatch h

end Completion.Packed

namespace Run

variable {found found' escapes escapes' : Bool}

/-- Runs of statements and of the same statements packed. -/
abbrev Packs (found escapes : Bool) (m m' : Run W Completion) : Prop :=
  Matches (Completion.Packed found escapes) m m'

/-- The same for statements that may declare variables. -/
abbrev PacksStmt (found escapes : Bool) (m m' : Run W (Completion × Declared)) : Prop :=
  Matches (fun r r' => r.1.Packed found escapes r'.1 ∧ r'.2 = r.2) m m'

/-- The same for a turn of a loop. -/
abbrev PacksTurn (found escapes : Bool) (m m' : Run W (Option Completion)) : Prop :=
  Matches (Completion.PackedTurn found escapes) m m'

theorem Packs.or_left
    {m m' : Run W Completion} (h : Packs found escapes m m') :
    Packs (found || found') (escapes || escapes') m m' :=
  Matches.mono h fun _ _ hcd => hcd.or_left

theorem Packs.or_right
    {m m' : Run W Completion} (h : Packs found escapes m m') :
    Packs (found' || found) (escapes' || escapes) m m' :=
  Matches.mono h fun _ _ hcd => hcd.or_right

theorem Packs.statement
    {m m' : Run W Completion} (h : Packs found escapes m m') :
    PacksStmt found escapes (m >>= fun c => pure (c, [])) (m' >>= fun c => pure (c, [])) :=
  Matches.bind h fun _ _ hcd => .pure ⟨hcd, rfl⟩

namespace PacksStmt

variable {m m' : Run W (Completion × Declared)}

theorem completion
    (h : PacksStmt found escapes m m') :
    Packs found escapes (m >>= fun r => pure r.1) (m' >>= fun r => pure r.1) :=
  Matches.bind h fun _ _ hr => .pure hr.1

theorem turn
    (h : PacksStmt found escapes m m') :
    PacksTurn found escapes (m >>= fun r => pure r.1.afterTurn)
      (m' >>= fun r => pure r.1.afterTurn) :=
  Matches.bind h fun _ _ hr => .pure hr.1.afterTurn

/-- Statements without returns may also stay as they are. -/
theorem self_of_not_found
    (h : PacksStmt false false m m') : PacksStmt found escapes m m := by
  intro s
  have hs := h s
  generalize m s = a at hs
  generalize m' s = b at hs
  cases hs with
  | none => exact .none
  | error v s' es => exact .error v s' es
  | ok s' es hr => exact .ok s' es ⟨hr.1.self_of_not_found, rfl⟩

/-- Statements that only declare have nothing to pack. -/
theorem normal
    (m : Run W α) (declared : α → Declared) :
    PacksStmt found escapes (m >>= fun a => pure (.normal, declared a))
      (m >>= fun a => pure (.normal, declared a)) :=
  .behind m fun _ => .pure ⟨.normal, rfl⟩

end PacksStmt

theorem Packs.forEach
    {turn turn' : Value → Run W (Option Completion)}
    (hturn : ∀ v, PacksTurn found escapes (turn v) (turn' v)) (vs : List Value) :
    Packs found escapes (Run.forEach turn vs) (Run.forEach turn' vs) := by
  induction vs with
  | nil => exact .pure .normal
  | cons v vs ih =>
      apply Matches.bind (hturn v)
      intro ended ended' h
      cases h with
      | none => exact ih
      | some h => exact .pure h

theorem Packs.iterate
    {rt : Runtime W} {turn turn' : Run W (Option Completion)}
    (hturn : PacksTurn found escapes turn turn') (n : Nat) :
    Packs found escapes ((rt.engine n).iterate turn) ((rt.engine n).iterate turn') := by
  induction n with
  | zero => exact .fail
  | succ n ih =>
      apply Matches.bind hturn
      intro ended ended' h
      cases h with
      | none => exact ih
      | some h => exact .pure h

theorem Packs.ending
    {m m' : Run W Completion} (h : Packs found escapes m m') :
    Matches (Completion.PackedEnding found escapes) (attempt m) (attempt m') := by
  intro s
  have hs := h s
  unfold attempt
  dsimp only
  generalize m s = a at hs
  generalize m' s = b at hs
  cases hs with
  | none => exact .none
  | error v s' es => exact .ok s' es (.error v)
  | ok s' es h => exact .ok s' es (.ok h)

theorem Packs.guarded
    {region region' cleanup cleanup' : Run W Completion}
    {handler handler' : Value → Run W Completion}
    (hregion : Packs found escapes region region')
    (hhandler : ∀ v, Packs found escapes (handler v) (handler' v))
    (hcleanup : Packs found escapes cleanup cleanup') :
    Packs found escapes (Run.guarded region handler cleanup)
      (Run.guarded region' handler' cleanup') := by
  apply Matches.bind hregion.ending
  intro r r' hr
  have hrecover : Matches (Completion.PackedEnding found escapes)
      (recover handler r) (recover handler' r') := by
    cases hr with
    | error v => exact (hhandler v).ending
    | ok h => exact .pure (.ok h)
  apply Matches.bind hrecover
  intro e e' he
  apply Matches.bind hcleanup
  intro c c' hc
  cases hc with
  | normal =>
      cases he with
      | error v => exact .raise v
      | ok h => exact .pure h
  | broke => exact .pure .broke
  | continued => exact .pure .continued
  | packed vs h => exact .pure (.packed vs h)
  | escaped vs h => exact .pure (.escaped vs h)

end Run

/-! ## Packed statements -/

section Packing

open Run Stmt

variable (rt : Runtime W) (n : Nat)

section Compound

/-! The compound statements, from what is known about their parts. -/

variable {found found' found'' escapes escapes' escapes'' : Bool} {env : Env} {test : Expr}
  {a a' body body' : Stmt} {b b' final final' : Option Stmt}

theorem Stmt.packs_exec_ifElse
    (ha : PacksStmt found escapes (a.exec rt (rt.engine n) env) (a'.exec rt (rt.engine n) env))
    (hb : PacksStmt found' escapes' (Stmt.execOption rt (rt.engine n) env b)
      (Stmt.execOption rt (rt.engine n) env b')) :
    PacksStmt (found || found') (escapes || escapes')
      ((Stmt.ifElse test a b).exec rt (rt.engine n) env)
      ((Stmt.ifElse test a' b').exec rt (rt.engine n) env) := by
  rw [Stmt.exec, Stmt.exec]
  apply Matches.behind
  intro v
  split
  · apply Matches.bind ha
    intro r r' hr
    exact .pure ⟨hr.1.or_left, rfl⟩
  · apply Matches.bind hb
    intro r r' hr
    exact .pure ⟨hr.1.or_right, rfl⟩

theorem Stmt.packs_exec_whileLoop
    (hbody : PacksStmt found escapes (body.exec rt (rt.engine n) env)
      (body'.exec rt (rt.engine n) env)) :
    PacksStmt found escapes ((Stmt.whileLoop test body).exec rt (rt.engine n) env)
      ((Stmt.whileLoop test body').exec rt (rt.engine n) env) := by
  rw [Stmt.exec, Stmt.exec]
  apply Packs.statement
  apply Packs.iterate
  apply Matches.behind
  intro v
  split
  · exact hbody.turn
  · exact .pure (.some .normal)

/-- An initialiser stays as it is, so its own returns must be none or escape. -/
theorem Stmt.packs_init
    {init : Option Stmt}
    (hinit : ∀ {init' found'}, packReturnsOption 1 init = .ok (init', found') →
      PacksStmt found' (returnsInInitOption init) (Stmt.execOption rt (rt.engine n) env init)
        (Stmt.execOption rt (rt.engine n) env init')) :
    PacksStmt found (returnsOption init) (Stmt.execOption rt (rt.engine n) env init)
      (Stmt.execOption rt (rt.engine n) env init) := by
  cases hreturns : returnsOption init with
  | true => exact .self _ fun r => ⟨.self r.1, rfl⟩
  | false =>
      obtain ⟨init', found₂, hpack⟩ := packReturnsOption_succ 0 init
      have hpacks := hinit hpack
      rw [not_found_of_packReturnsOption init hpack hreturns,
        returnsInInitOption_eq_false hreturns] at hpacks
      exact hpacks.self_of_not_found

theorem Stmt.packs_exec_forLoop
    {init : Option Stmt} {test update : Option Expr}
    (hinit : ∀ {init' found'}, packReturnsOption 1 init = .ok (init', found') →
      PacksStmt found' (returnsInInitOption init) (Stmt.execOption rt (rt.engine n) env init)
        (Stmt.execOption rt (rt.engine n) env init'))
    (hbody : ∀ ds, PacksStmt found escapes (body.exec rt (rt.engine n) (env.extend ds))
      (body'.exec rt (rt.engine n) (env.extend ds))) :
    PacksStmt found (returnsOption init || escapes)
      ((Stmt.forLoop init test update body).exec rt (rt.engine n) env)
      ((Stmt.forLoop init test update body').exec rt (rt.engine n) env) := by
  rw [Stmt.exec, Stmt.exec]
  apply Matches.bind (Stmt.packs_init rt n hinit)
  rintro ⟨c, _⟩ ⟨c', ds⟩ ⟨hc, rfl⟩
  have hfirst : c.Packed found (returnsOption init || escapes) c' :=
    hc.mono id fun h => by simp [h]
  cases hc with
  | broke | continued | packed vs h | escaped vs h => exact .pure ⟨hfirst, rfl⟩
  | normal =>
      apply Packs.statement
      apply Packs.iterate
      apply Matches.behind
      intro v
      split
      · apply Matches.bind (hbody ds)
        intro r r' hr
        have hturn : Completion.PackedTurn found (returnsOption init || escapes)
            r.1.afterTurn r'.1.afterTurn := (hr.1.mono id fun h => by simp [h]).afterTurn
        generalize r.1.afterTurn = ended at hturn
        generalize r'.1.afterTurn = ended' at hturn
        cases hturn with
        | none => exact .behind _ fun _ => .pure .none
        | some h => exact .pure (.some h)
      · exact .pure (.some .normal)

theorem Stmt.packs_exec_forEach
    {x : String} {iterable : Expr}
    (hbody : ∀ i, PacksStmt found escapes (body.exec rt (rt.engine n) (env.set x i))
      (body'.exec rt (rt.engine n) (env.set x i))) :
    PacksStmt found escapes ((Stmt.forEach x iterable body).exec rt (rt.engine n) env)
      ((Stmt.forEach x iterable body').exec rt (rt.engine n) env) := by
  rw [Stmt.exec, Stmt.exec]
  apply Matches.behind
  intro v
  apply Matches.behind
  intro vs
  apply Packs.statement
  apply Packs.forEach
  intro u
  apply Matches.behind
  intro i
  exact (hbody i).turn

theorem Stmt.packs_exec_tryCatch
    {x : Option String} {handler handler' : Option Stmt}
    (hbody : PacksStmt found escapes (body.exec rt (rt.engine n) env)
      (body'.exec rt (rt.engine n) env))
    (hhandler : ∀ v, Packs found' escapes' (Stmt.handle rt (rt.engine n) env x handler v)
      (Stmt.handle rt (rt.engine n) env x handler' v))
    (hfinal : PacksStmt found'' escapes'' (Stmt.execOption rt (rt.engine n) env final)
      (Stmt.execOption rt (rt.engine n) env final')) :
    PacksStmt (found || found' || found'') (escapes || escapes' || escapes'')
      ((Stmt.tryCatch body x handler final).exec rt (rt.engine n) env)
      ((Stmt.tryCatch body' x handler' final').exec rt (rt.engine n) env) := by
  rw [Stmt.exec, Stmt.exec]
  apply Packs.statement
  apply Packs.guarded
  · exact hbody.completion.or_left.or_left
  · intro v
    exact (hhandler v).or_right.or_left
  · exact hfinal.completion.or_right

end Compound

mutual

/-- Packed statements run as their originals, with packed returns. -/
theorem Stmt.packs_exec
    {depth : Nat} {s' : Stmt} {found : Bool} (env : Env) :
    (s : Stmt) → packReturns depth s = .ok (s', found) →
      PacksStmt found s.returnsInInit (s.exec rt (rt.engine n) env)
        (s'.exec rt (rt.engine n) env)
  | .ret none, h => by
      cases h
      rw [Stmt.exec, Stmt.exec, Expr.results, Option.toList, Expr.resultsList]
      exact .pure ⟨.packed [] rfl, rfl⟩
  | .ret (some e), h => by
      cases h
      rw [Stmt.exec, Stmt.exec, Expr.results, Option.toList, Expr.resultsList_singleton]
      have hresults := Matches.then_pure (fun vs => [Value.sequence vs])
        (e.results rt (rt.engine n) env)
      apply hresults.bind
      rintro vs _ rfl
      exact .pure ⟨.packed vs rfl, rfl⟩
  | .breakLoop, h => by
      rw [packReturns] at h
      split at h <;> cases h
      rw [Stmt.exec]
      exact .pure ⟨.broke, rfl⟩
  | .continueLoop, h => by
      rw [packReturns] at h
      split at h <;> cases h
      rw [Stmt.exec]
      exact .pure ⟨.continued, rfl⟩
  | .block body, h => by
      obtain ⟨⟨body', found₁⟩, hbody, h⟩ := Except.bind_eq_ok.mp h
      cases h
      rw [Stmt.exec, Stmt.exec, returnsInInit]
      exact (Stmt.packs_execList env body hbody).statement
  | .ifElse test a b, h => by
      obtain ⟨⟨a', found₁⟩, ha, h⟩ := Except.bind_eq_ok.mp h
      obtain ⟨⟨b', found₂⟩, hb, h⟩ := Except.bind_eq_ok.mp h
      cases h
      rw [returnsInInit]
      exact packs_exec_ifElse rt n (Stmt.packs_exec env a ha) (Stmt.packs_execOption env b hb)
  | .whileLoop test body, h => by
      obtain ⟨⟨body', found₁⟩, hbody, h⟩ := Except.bind_eq_ok.mp h
      cases h
      rw [returnsInInit]
      exact packs_exec_whileLoop rt n (Stmt.packs_exec env body hbody)
  | .forLoop init test update body, h => by
      obtain ⟨⟨body', found₁⟩, hbody, h⟩ := Except.bind_eq_ok.mp h
      cases h
      rw [returnsInInit]
      exact packs_exec_forLoop rt n (fun hinit => Stmt.packs_execOption env init hinit)
        fun ds => Stmt.packs_exec (env.extend ds) body hbody
  | .forEach x iterable body, h => by
      obtain ⟨⟨body', found₁⟩, hbody, h⟩ := Except.bind_eq_ok.mp h
      cases h
      rw [returnsInInit]
      exact packs_exec_forEach rt n fun i => Stmt.packs_exec (env.set x i) body hbody
  | .tryCatch body x handler final, h => by
      obtain ⟨⟨body', found₁⟩, hbody, h⟩ := Except.bind_eq_ok.mp h
      obtain ⟨⟨handler', found₂⟩, hhandler, h⟩ := Except.bind_eq_ok.mp h
      obtain ⟨⟨final', found₃⟩, hfinal, h⟩ := Except.bind_eq_ok.mp h
      cases h
      rw [returnsInInit]
      exact packs_exec_tryCatch rt n (Stmt.packs_exec env body hbody)
        (fun v => Stmt.packs_handle env x v handler hhandler)
        (Stmt.packs_execOption env final hfinal)
  | .holding ⟨items, body, isAsync⟩, h => by
      obtain ⟨⟨body', found₁⟩, hbody, h⟩ := Except.bind_eq_ok.mp h
      cases h
      rw [Stmt.exec, Stmt.exec]
      exact .fail
  | .expr e, h => by
      cases h
      rw [Stmt.exec]
      exact PacksStmt.normal _ _
  | .declare x i m, h => by
      cases h
      rw [Stmt.exec]
      apply Matches.behind
      intro v
      exact PacksStmt.normal _ _
  | .destructure p i, h => by
      cases h
      rw [Stmt.exec]
      apply Matches.behind
      intro v
      apply Matches.behind
      intro vs
      exact PacksStmt.normal _ _
  | .throw e, h => by
      cases h
      rw [Stmt.exec]
      apply Matches.behind
      intro v
      exact .raise v
  | .function f, h => by
      cases h
      rw [Stmt.exec]
      apply Matches.behind
      intro i
      exact PacksStmt.normal _ _
termination_by structural s => s

theorem Stmt.packs_execList
    {depth : Nat} {ss' : List Stmt} {found : Bool} (env : Env) :
    (ss : List Stmt) → packReturnsList depth ss = .ok (ss', found) →
      Packs found (returnsInInitList ss) (Stmt.execList rt (rt.engine n) env ss)
        (Stmt.execList rt (rt.engine n) env ss')
  | [], h => by
      cases h
      rw [Stmt.execList]
      exact .pure .normal
  | s :: ss, h => by
      obtain ⟨⟨s', found₁⟩, hs, h⟩ := Except.bind_eq_ok.mp h
      obtain ⟨⟨ss', found₂⟩, hss, h⟩ := Except.bind_eq_ok.mp h
      cases h
      rw [Stmt.execList, Stmt.execList, returnsInInitList]
      apply Matches.bind (Stmt.packs_exec env s hs)
      rintro ⟨c, _⟩ ⟨c', ds⟩ ⟨hc, rfl⟩
      have hfirst : c.Packed (found₁ || found₂) (s.returnsInInit || returnsInInitList ss) c' :=
        hc.or_left
      cases hc with
      | normal =>
          exact (Stmt.packs_execList (env.extend ds) ss hss).or_right
      | broke => exact .pure hfirst
      | continued => exact .pure hfirst
      | packed vs h => exact .pure hfirst
      | escaped vs h => exact .pure hfirst
termination_by structural ss => ss

theorem Stmt.packs_execOption
    {depth : Nat} {s' : Option Stmt} {found : Bool} (env : Env) :
    (s : Option Stmt) → packReturnsOption depth s = .ok (s', found) →
      PacksStmt found (returnsInInitOption s) (Stmt.execOption rt (rt.engine n) env s)
        (Stmt.execOption rt (rt.engine n) env s')
  | none, h => by
      cases h
      rw [Stmt.execOption]
      exact .pure ⟨.normal, rfl⟩
  | some s, h => by
      obtain ⟨⟨s', found₁⟩, hs, h⟩ := Except.bind_eq_ok.mp h
      cases h
      exact Stmt.packs_exec env s hs
termination_by structural s => s

theorem Stmt.packs_handle
    {depth : Nat} {s' : Option Stmt} {found : Bool} (env : Env) (param : Option String)
    (v : Value) :
    (s : Option Stmt) → packReturnsOption depth s = .ok (s', found) →
      Packs found (returnsInInitOption s) (Stmt.handle rt (rt.engine n) env param s v)
        (Stmt.handle rt (rt.engine n) env param s' v)
  | none, h => by
      cases h
      exact .raise v
  | some s, h => by
      obtain ⟨⟨s', found₁⟩, hs, h⟩ := Except.bind_eq_ok.mp h
      cases h
      cases param with
      | none => exact (Stmt.packs_exec env s hs).completion
      | some x =>
          apply Matches.behind
          intro i
          exact (Stmt.packs_exec (env.set x i) s hs).completion
termination_by structural s => s

end

end Packing

end Bracket
