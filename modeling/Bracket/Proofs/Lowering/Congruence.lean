import Bracket.Proofs.Double.Rounding
import Bracket.Proofs.Lowering.Run
import Bracket.Proofs.Tree.Likeness
import Bracket.Target.Language

/-!
# Lowering respects likeness

Two trees that differ in hints only are lowered alike: both fail with the same error,
or both succeed with results that differ in hints only and with the same number of
the next resource.

Two computations are compared step by step.  The induction is on the rules of
likeness; it does not use that a tree is alike to itself, which fails for a NaN.  The
code that an expansion adds around a resource has no NaN in it, since its only numbers
are positions.
-/

namespace Bracket

/-! ## Computations that agree -/

/-- Two computations fail with the same error, or both succeed with related results. -/
inductive Except.Agree
    {ε α β : Type} (R : α → β → Prop) : Except ε α → Except ε β → Prop where
  | error (e : ε) : Except.Agree R (.error e) (.error e)
  | ok {a : α} {b : β} (h : R a b) : Except.Agree R (.ok a) (.ok b)

theorem Except.Agree.bind
    {ε α β γ δ : Type} {R : α → β → Prop} {S : γ → δ → Prop}
    {x : Except ε α} {y : Except ε β} {f : α → Except ε γ} {g : β → Except ε δ}
    (h : Except.Agree R x y) (hf : ∀ a b, R a b → Except.Agree S (f a) (g b)) :
    Except.Agree S (x >>= f) (y >>= g) := by
  cases h with
  | error e => exact .error e
  | ok hab => exact hf _ _ hab

theorem Except.Agree.error_or_ok
    {ε α β : Type} {R : α → β → Prop} {x : Except ε α} {y : Except ε β}
    (h : Except.Agree R x y) :
    (∃ e, x = .error e ∧ y = .error e) ∨ ∃ a b, x = .ok a ∧ y = .ok b ∧ R a b := by
  cases h with
  | error e => exact .inl ⟨e, rfl, rfl⟩
  | ok hab => exact .inr ⟨_, _, rfl, rfl, hab⟩

/-- Related results that come with equal marks. -/
def Marked {α β μ : Type} (R : α → β → Prop) (r : α × μ) (r' : β × μ) : Prop :=
  R r.1 r'.1 ∧ r.2 = r'.2

/-- Two lowerings agree from every number on, and go on with the same number. -/
def Lowering.Agree
    {α β : Type} (R : α → β → Prop) (m : Lowering α) (m' : Lowering β) : Prop :=
  ∀ k, Except.Agree (Marked R) (m.run k) (m'.run k)

namespace Lowering.Agree

variable {α β γ δ : Type} {R : α → β → Prop} {S : γ → δ → Prop}

theorem pure
    {a : α} {b : β} (h : R a b) : Agree R (Pure.pure a) (Pure.pure b) :=
  fun _ => .ok ⟨h, rfl⟩

theorem bind
    {m : Lowering α} {m' : Lowering β} {f : α → Lowering γ} {g : β → Lowering δ}
    (h : Agree R m m') (hf : ∀ a b, R a b → Agree S (f a) (g b)) :
    Agree S (m >>= f) (m' >>= g) := by
  intro k
  rw [StateT.run_bind, StateT.run_bind]
  refine (h k).bind ?_
  rintro ⟨a, j⟩ ⟨b, j'⟩ ⟨hab, rfl⟩
  exact hf a b hab j

theorem lift
    {x : Except LoweringError α} {y : Except LoweringError β} (h : Except.Agree R x y) :
    Agree R (liftM x : Lowering α) (liftM y : Lowering β) := by
  intro k
  rw [lift_run, lift_run]
  exact h.bind fun a b hab => .ok ⟨hab, rfl⟩

/-- A step that both computations share and whose result decides nothing. -/
theorem check
    {x : Except LoweringError Unit} {m : Lowering γ} {m' : Lowering δ} (h : Agree S m m') :
    Agree S ((liftM x : Lowering Unit) >>= fun _ => m)
      ((liftM x : Lowering Unit) >>= fun _ => m') := by
  have hx : Except.Agree (fun _ _ => True) x x := by
    cases x with
    | error e => exact .error e
    | ok u => exact .ok trivial
  exact (lift hx).bind fun _ _ _ => h

theorem reserve
    {f : Nat → Lowering γ} {g : Nat → Lowering δ} (n : Nat) (h : ∀ i, Agree S (f i) (g i)) :
    Agree S (Lowering.reserve n >>= f) (Lowering.reserve n >>= g) := by
  have hreserve : Agree Eq (Lowering.reserve n) (Lowering.reserve n) :=
    fun k => .ok ⟨rfl, rfl⟩
  refine hreserve.bind ?_
  rintro i _ rfl
  exact h i

end Lowering.Agree

/-! ## Packed returns -/

theorem Expr.AlikeOption.toList
    {a b : Option Expr} (h : Expr.AlikeOption a b) : Expr.AlikeList a.toList b.toList := by
  cases h with
  | none => exact .nil
  | some he => exact .cons he .nil

mutual

/-- Returns are packed alike. -/
theorem Stmt.Alike.packReturns
    (depth : Nat) :
    {s s' : Stmt} → Stmt.Alike s s' →
      Except.Agree (Marked Stmt.Alike) (s.packReturns depth) (s'.packReturns depth)
  | _, _, .expr he => .ok ⟨.expr he, rfl⟩
  | _, _, .declare x m m' hi => .ok ⟨.declare x m m' hi, rfl⟩
  | _, _, .destructure p hi => .ok ⟨.destructure p hi, rfl⟩
  | _, _, .throw he => .ok ⟨.throw he, rfl⟩
  | _, _, .function hf => .ok ⟨.function hf, rfl⟩
  | _, _, .ret hv => .ok ⟨.ret (.some (.array hv.toList)), rfl⟩
  | _, _, .breakLoop => by
      rw [Stmt.packReturns]
      by_cases hdepth : depth = 0
      · rw [if_pos hdepth]
        exact .error _
      · rw [if_neg hdepth]
        exact .ok ⟨.breakLoop, rfl⟩
  | _, _, .continueLoop => by
      rw [Stmt.packReturns]
      by_cases hdepth : depth = 0
      · rw [if_pos hdepth]
        exact .error _
      · rw [if_neg hdepth]
        exact .ok ⟨.continueLoop, rfl⟩
  | _, _, .block hb => by
      rw [Stmt.packReturns, Stmt.packReturns]
      refine (hb.packReturns depth).bind ?_
      rintro ⟨b, found⟩ ⟨b', _⟩ ⟨hb, rfl⟩
      exact .ok ⟨.block hb, rfl⟩
  | _, _, .ifElse ht ha hb => by
      rw [Stmt.packReturns, Stmt.packReturns]
      refine (ha.packReturns depth).bind ?_
      rintro ⟨a, found⟩ ⟨a', _⟩ ⟨ha, rfl⟩
      refine (hb.packReturns depth).bind ?_
      rintro ⟨b, found'⟩ ⟨b', _⟩ ⟨hb, rfl⟩
      exact .ok ⟨.ifElse ht ha hb, rfl⟩
  | _, _, .whileLoop ht hb => by
      rw [Stmt.packReturns, Stmt.packReturns]
      refine (hb.packReturns (depth + 1)).bind ?_
      rintro ⟨b, found⟩ ⟨b', _⟩ ⟨hb, rfl⟩
      exact .ok ⟨.whileLoop ht hb, rfl⟩
  | _, _, .forLoop hi ht hu hb => by
      rw [Stmt.packReturns, Stmt.packReturns]
      refine (hb.packReturns (depth + 1)).bind ?_
      rintro ⟨b, found⟩ ⟨b', _⟩ ⟨hb, rfl⟩
      exact .ok ⟨.forLoop hi ht hu hb, rfl⟩
  | _, _, .forEach x hi hb => by
      rw [Stmt.packReturns, Stmt.packReturns]
      refine (hb.packReturns (depth + 1)).bind ?_
      rintro ⟨b, found⟩ ⟨b', _⟩ ⟨hb, rfl⟩
      exact .ok ⟨.forEach x hi hb, rfl⟩
  | _, _, .tryCatch p hb hh hf => by
      rw [Stmt.packReturns, Stmt.packReturns]
      refine (hb.packReturns depth).bind ?_
      rintro ⟨b, found⟩ ⟨b', _⟩ ⟨hb, rfl⟩
      refine (hh.packReturns depth).bind ?_
      rintro ⟨h, found'⟩ ⟨h', _⟩ ⟨hh, rfl⟩
      refine (hf.packReturns depth).bind ?_
      rintro ⟨f, found''⟩ ⟨f', _⟩ ⟨hf, rfl⟩
      exact .ok ⟨.tryCatch p hb hh hf, rfl⟩
  | _, _, .holding (.mk isAsync hitems hbody) => by
      rw [Stmt.packReturns, Stmt.packReturns]
      refine (hbody.packReturns depth).bind ?_
      rintro ⟨b, found⟩ ⟨b', _⟩ ⟨hb, rfl⟩
      exact .ok ⟨.holding (.mk isAsync hitems hb), rfl⟩

theorem Stmt.AlikeList.packReturns
    (depth : Nat) :
    {ss ss' : List Stmt} → Stmt.AlikeList ss ss' →
      Except.Agree (Marked Stmt.AlikeList)
        (Stmt.packReturnsList depth ss) (Stmt.packReturnsList depth ss')
  | _, _, .nil => .ok ⟨.nil, rfl⟩
  | _, _, .cons hs hss => by
      rw [Stmt.packReturnsList, Stmt.packReturnsList]
      refine (hs.packReturns depth).bind ?_
      rintro ⟨s, found⟩ ⟨s', _⟩ ⟨hs, rfl⟩
      refine (hss.packReturns depth).bind ?_
      rintro ⟨ss, found'⟩ ⟨ss', _⟩ ⟨hss, rfl⟩
      exact .ok ⟨.cons hs hss, rfl⟩

theorem Stmt.AlikeOption.packReturns
    (depth : Nat) :
    {s s' : Option Stmt} → Stmt.AlikeOption s s' →
      Except.Agree (Marked Stmt.AlikeOption)
        (Stmt.packReturnsOption depth s) (Stmt.packReturnsOption depth s')
  | _, _, .none => .ok ⟨.none, rfl⟩
  | _, _, .some hs => by
      rw [Stmt.packReturnsOption, Stmt.packReturnsOption]
      refine (hs.packReturns depth).bind ?_
      rintro ⟨s, found⟩ ⟨s', _⟩ ⟨hs, rfl⟩
      exact .ok ⟨.some hs, rfl⟩

end

/-! ## The code around a resource -/

/-- A position that fits into a word is a number and alike to itself. -/
theorem Expr.alike_position
    {i : Nat} (h : i < Nat.pow 2 64) :
    Expr.Alike (.number (Double.ofNat i)) (.number (Double.ofNat i)) :=
  .literal (a := .number _) (b := .number _) (Double.same_ofNat h)

mutual

theorem Pattern.alike_indexedBindings
    (base : UInt64) {source : Expr} (h : Expr.Alike source source) :
    (p : Pattern) →
      Stmt.AlikeList (p.indexedBindings base source) (p.indexedBindings base source)
  | .name x => .singleton (.declare x true true (.some h))
  | .tuple slots => Pattern.alike_indexedSlots base h 0 slots

theorem Pattern.alike_indexedSlots
    (base : UInt64) {source : Expr} (h : Expr.Alike source source) (i : Nat) :
    (ps : List Pattern) →
      Stmt.AlikeList (Pattern.indexedSlots base source i ps)
        (Pattern.indexedSlots base source i ps)
  | [] => .nil
  | p :: ps => by
      have hposition := Expr.alike_position (UInt64.ofNat i + base).toNat_lt
      exact (Pattern.alike_indexedBindings base (.member h hposition rfl) p).append
        (Pattern.alike_indexedSlots base h (i + 1) ps)

end

namespace Context

variable (c : Context) (n : Nat)

theorem alike_bindEntryValue
    (binding : Option Pattern) :
    Stmt.AlikeList (c.bindEntryValue n binding) (c.bindEntryValue n binding) := by
  match binding with
  | none => exact .nil
  | some (.name x) => exact .singleton (.declare x true true (.some (.ident _)))
  | some (.tuple slots) =>
      by_cases hnative : c.conventions.nativeUnpacking
      · rw [bindEntryValue, if_pos hnative]
        · exact .singleton (.destructure _ (.ident _))
        · simp
      · rw [bindEntryValue, if_neg hnative]
        · exact Pattern.alike_indexedBindings _ (.ident _) _
        · simp

theorem alike_enterCall : Expr.Alike (c.enterCall n) (c.enterCall n) :=
  .methodCall _ (.ident _) .nil

theorem alike_exitCall
    {argument : Expr} (h : Expr.Alike argument argument) :
    Expr.Alike (c.exitCall n argument) (c.exitCall n argument) :=
  .methodCall _ (.ident _) (.cons h .nil)

theorem alike_suspendIf
    {call : Expr} (h : Expr.Alike call call) (isAsync : Bool) :
    Expr.Alike (call.suspendIf isAsync) (call.suspendIf isAsync) := by
  cases isAsync with
  | false => exact h
  | true => exact .await h

theorem alike_outcomeAt
    {i : Nat} (h : i < Nat.pow 2 64) : Expr.Alike (c.outcomeAt n i) (c.outcomeAt n i) :=
  .member (.ident _) (Expr.alike_position h) rfl

theorem alike_enterStatements
    {item item' : Item} {enter : Expr} (hitem : Item.Alike item item')
    (henter : Expr.Alike enter enter) :
    Stmt.AlikeList (c.enterStatements n item enter) (c.enterStatements n item' enter) := by
  obtain ⟨binding, arity, hacquire⟩ := hitem
  refine .cons (.declare _ false false (.some hacquire)) (.singleton ?_)
  cases binding with
  | none => exact .expr henter
  | some p => exact .declare _ false false (.some henter)

theorem alike_onError
    (isAsync : Bool) : Stmt.Alike (c.onError isAsync n) (c.onError isAsync n) := by
  have herror : Expr.Alike (.ident (c.temp .error n)) (.ident (c.temp .error n)) := .ident _
  have hfailed :
      Expr.Alike (.assign (.ident (c.temp .failed n)) (.bool true))
        (.assign (.ident (c.temp .failed n)) (.bool true)) :=
    .assign (.ident _) (.literal rfl)
  have hexit := alike_suspendIf (c.alike_exitCall n herror) isAsync
  exact .block (.cons (.expr hfailed)
    (.singleton (.ifElse (.unary _ hexit) (.block (.singleton (.throw herror))) .none)))

theorem alike_onLeave
    (isAsync : Bool) : Stmt.Alike (c.onLeave isAsync n) (c.onLeave isAsync n) := by
  have hexit := alike_suspendIf (c.alike_exitCall n (.literal rfl : Expr.Alike .null .null)) isAsync
  exact .block (.singleton
    (.ifElse (.unary _ (.ident _)) (.block (.singleton (.expr hexit))) .none))

theorem alike_onSuccess
    (returns : Bool) : Stmt.Alike (c.onSuccess n returns) (c.onSuccess n returns) := by
  have hnull : Expr.Alike .null .null := .literal rfl
  have hresult := c.alike_outcomeAt n (i := 2) (by decide)
  refine .block (.cons (.expr (c.alike_exitCall n hnull)) ?_)
  cases returns with
  | false => exact .nil
  | true =>
      have hunpack :
          Expr.Alike (.call (.field (.ident "table") "unpack") [c.outcomeAt n 2])
            (.call (.field (.ident "table") "unpack") [c.outcomeAt n 2]) :=
        .call (.member (.ident _) (.literal rfl) rfl) (.cons hresult .nil)
      exact .singleton (.ifElse (.binary _ hresult hnull)
        (.block (.singleton (.ret (.some hunpack)))) .none)

theorem alike_onFailure : Stmt.Alike (c.onFailure n) (c.onFailure n) := by
  have herror := c.alike_outcomeAt n (i := 2) (by decide)
  exact .ifElse (.unary _ (c.alike_exitCall n herror)) (.block (.singleton (.throw herror))) .none

variable {c n}

theorem alike_expandGuarded
    {item item' : Item} {inner inner' : List Stmt} (isAsync : Bool)
    (hitem : Item.Alike item item') (hinner : Stmt.AlikeList inner inner') :
    Stmt.AlikeList (c.expandGuarded isAsync n item inner)
      (c.expandGuarded isAsync n item' inner') := by
  have henter := c.alike_enterStatements n hitem (alike_suspendIf (c.alike_enterCall n) isAsync)
  have hfailed :
      Stmt.Alike (.letVar (c.temp .failed n) (some (.bool false)))
        (.letVar (c.temp .failed n) (some (.bool false))) :=
    .declare _ true true (.some (.literal rfl))
  obtain ⟨binding, arity, hacquire⟩ := hitem
  have hguarded := (c.alike_bindEntryValue n binding).append hinner
  exact henter.append (.cons hfailed (.singleton (.tryCatch _ (.block hguarded)
    (.some (c.alike_onError n isAsync)) (.some (c.alike_onLeave n isAsync)))))

theorem agree_expandProtected
    {item item' : Item} {inner inner' : List Stmt}
    (hitem : Item.Alike item item') (hinner : Stmt.AlikeList inner inner') :
    Except.Agree Stmt.AlikeList (c.expandProtected n item inner)
      (c.expandProtected n item' inner') := by
  have henter := c.alike_enterStatements n hitem (c.alike_enterCall n)
  obtain ⟨binding, arity, hacquire⟩ := hitem
  have hpacked := ((c.alike_bindEntryValue n binding).append hinner).packReturns 0
  rw [expandProtected, expandProtected]
  dsimp only
  generalize Stmt.packReturnsList 0 (c.bindEntryValue n binding ++ inner) = x at hpacked ⊢
  generalize Stmt.packReturnsList 0 (c.bindEntryValue n binding ++ inner') = y at hpacked ⊢
  cases hpacked with
  | error exit => exact .error _
  | @ok packed packed' h =>
      obtain ⟨guarded, returns⟩ := packed
      obtain ⟨guarded', _⟩ := packed'
      obtain ⟨hguarded, rfl⟩ := h
      have hclosure :
          Expr.Alike (.function (.anonymous [] guarded)) (.function (.anonymous [] guarded')) :=
        .function (.mk _ _ _ hguarded)
      have hcall := Expr.AlikeList.cons
        (Expr.Alike.call (.ident "pcall") (.cons hclosure .nil)) .nil
      exact .ok (henter.append (.cons (.declare _ false false (.some (.array hcall)))
        (.singleton (.ifElse (c.alike_outcomeAt n (by decide)) (c.alike_onSuccess n returns)
          (.some (c.alike_onFailure n))))))

/-- Alike resources are expanded alike around alike statements. -/
theorem agree_expandItems
    {items items' : List Item} {inner inner' : List Stmt} (isAsync : Bool) (n : Nat)
    (hitems : Item.AlikeList items items') (hinner : Stmt.AlikeList inner inner') :
    Except.Agree Stmt.AlikeList (c.expandItems isAsync n items inner)
      (c.expandItems isAsync n items' inner') := by
  match hitems with
  | .nil => exact .ok hinner
  | .cons hitem hrest =>
      rw [expandItems, expandItems]
      refine (agree_expandItems isAsync (n + 1) hrest hinner).bind fun held held' hheld => ?_
      by_cases hstyle : c.conventions.expansion = .protectedCall
      · rw [if_pos hstyle, if_pos hstyle]
        exact agree_expandProtected hitem hheld
      · rw [if_neg hstyle, if_neg hstyle]
        exact .ok (alike_expandGuarded isAsync hitem hheld)

theorem agree_expandScoped
    {s s' : Scoped} (h : Scoped.Alike s s') :
    Except.Agree Stmt.AlikeList (c.expandScoped n s) (c.expandScoped n s') := by
  obtain ⟨isAsync, hitems, hbody⟩ := h
  rw [expandScoped, expandScoped]
  by_cases hstyle : c.conventions.expansion = .native
  · rw [if_pos hstyle, if_pos hstyle]
    exact .ok (.singleton (.holding (.mk isAsync hitems hbody)))
  · rw [if_neg hstyle, if_neg hstyle]
    exact agree_expandItems isAsync n hitems hbody

end Context

/-! ## Lowering -/

section Lowering

open Lowering

variable (c : Context)

theorem Expr.lower_of_isString
    {e : Expr} (inAsync : Bool) (h : e.isString = true) : e.lower c inAsync = pure e := by
  match e, h with
  | .literal (.string text), _ => rw [Expr.lower]

mutual

/-- Alike expressions are lowered alike. -/
theorem Expr.Alike.lower
    (inAsync : Bool) :
    {a b : Expr} → Expr.Alike a b →
      Agree Expr.Alike (a.lower c inAsync) (b.lower c inAsync)
  | _, _, .literal h => by
      rw [Expr.lower, Expr.lower]
      exact .pure (.literal h)
  | _, _, .ident x => by
      rw [Expr.lower]
      exact .pure (.ident x)
  | _, _, .binary op hl hr => by
      rw [Expr.lower, Expr.lower]
      refine (hl.lower inAsync).bind fun l l' hl => ?_
      refine (hr.lower inAsync).bind fun r r' hr => ?_
      exact .pure (.binary op hl hr)
  | _, _, .unary op he => by
      rw [Expr.lower, Expr.lower]
      refine (he.lower inAsync).bind fun e e' he => ?_
      exact .pure (.unary op he)
  | _, _, .call hf hargs => by
      rw [Expr.lower, Expr.lower]
      refine (hf.lower inAsync).bind fun f f' hf => ?_
      refine (hargs.lower inAsync).bind fun args args' hargs => ?_
      exact .pure (.call hf hargs)
  | _, _, .methodCall m hr hargs => by
      rw [Expr.lower, Expr.lower]
      refine (hr.lower inAsync).bind fun r r' hr => ?_
      refine (hargs.lower inAsync).bind fun args args' hargs => ?_
      exact .pure (.methodCall m hr hargs)
  | _, _, @Expr.Alike.member _ _ p p' d d' ho hp hc => by
      rw [Expr.lower, Expr.lower]
      refine (ho.lower inAsync).bind fun o o' ho => ?_
      -- Where the brackets differ, the member is a literal name, which stays as it is.
      by_cases hbrackets : d = d'
      · refine (hp.lower inAsync).bind fun q q' hq => ?_
        exact .pure (.member ho hq (by rw [hbrackets, hq.isString_eq]))
      · have hliteral : p.isString = true := by
          cases hstring : p.isString with
          | true => rfl
          | false =>
              rw [← hp.isString_eq, hstring] at hc
              exact absurd (by simpa using hc) hbrackets
        rw [Expr.lower_of_isString c inAsync hliteral,
          Expr.lower_of_isString c inAsync (hp.isString_eq.symm.trans hliteral)]
        exact .pure (.member ho hp hc)
  | _, _, .array hes => by
      rw [Expr.lower, Expr.lower]
      refine (hes.lower inAsync).bind fun es es' hes => ?_
      exact .pure (.array hes)
  | _, _, .object hps => by
      rw [Expr.lower, Expr.lower]
      refine (hps.lower inAsync).bind fun ps ps' hps => ?_
      exact .pure (.object hps)
  | _, _, .function hf => by
      rw [Expr.lower, Expr.lower]
      refine hf.lower.bind fun f f' hf => ?_
      exact .pure (.function hf)
  | _, _, .conditional ht ha hb => by
      rw [Expr.lower, Expr.lower]
      refine (ht.lower inAsync).bind fun t t' ht => ?_
      refine (ha.lower inAsync).bind fun a a' ha => ?_
      refine (hb.lower inAsync).bind fun b b' hb => ?_
      exact .pure (.conditional ht ha hb)
  | _, _, .assign ht hv => by
      rw [Expr.lower, Expr.lower]
      refine (ht.lower inAsync).bind fun t t' ht => ?_
      refine (hv.lower inAsync).bind fun v v' hv => ?_
      exact .pure (.assign ht hv)
  | _, _, .await he => by
      rw [Expr.lower, Expr.lower]
      refine (he.lower inAsync).bind fun e e' he => ?_
      exact .pure (.await he)

theorem Expr.AlikeList.lower
    (inAsync : Bool) :
    {as bs : List Expr} → Expr.AlikeList as bs →
      Agree Expr.AlikeList (Expr.lowerList c inAsync as) (Expr.lowerList c inAsync bs)
  | _, _, .nil => by
      rw [Expr.lowerList]
      exact .pure .nil
  | _, _, .cons he hes => by
      rw [Expr.lowerList, Expr.lowerList]
      refine (he.lower inAsync).bind fun e e' he => ?_
      refine (hes.lower inAsync).bind fun es es' hes => ?_
      exact .pure (.cons he hes)

theorem Expr.AlikeOption.lower
    (inAsync : Bool) :
    {a b : Option Expr} → Expr.AlikeOption a b →
      Agree Expr.AlikeOption (Expr.lowerOption c inAsync a) (Expr.lowerOption c inAsync b)
  | _, _, .none => by
      rw [Expr.lowerOption]
      exact .pure .none
  | _, _, .some he => by
      rw [Expr.lowerOption, Expr.lowerOption]
      refine (he.lower inAsync).bind fun e e' he => ?_
      exact .pure (.some he)

theorem Expr.AlikePairs.lower
    (inAsync : Bool) :
    {as bs : List (String × Expr)} → Expr.AlikePairs as bs →
      Agree Expr.AlikePairs (Expr.lowerPairs c inAsync as) (Expr.lowerPairs c inAsync bs)
  | _, _, .nil => by
      rw [Expr.lowerPairs]
      exact .pure .nil
  | _, _, .cons key he hps => by
      rw [Expr.lowerPairs, Expr.lowerPairs]
      refine (he.lower inAsync).bind fun e e' he => ?_
      refine (hps.lower inAsync).bind fun ps ps' hps => ?_
      exact .pure (.cons key he hps)

theorem Func.Alike.lower :
    {f g : Func} → Func.Alike f g → Agree Func.Alike (f.lower c) (g.lower c)
  | _, _, .mk name params isAsync hbody => by
      rw [Func.lower, Func.lower]
      refine (hbody.lower isAsync).bind fun body body' hbody => ?_
      exact .pure (.mk name params isAsync hbody)

/-- Alike statements are lowered alike. -/
theorem Stmt.Alike.lower
    (inAsync : Bool) :
    {a b : Stmt} → Stmt.Alike a b →
      Agree Stmt.AlikeList (a.lower c inAsync) (b.lower c inAsync)
  | _, _, .expr he => by
      rw [Stmt.lower, Stmt.lower]
      refine (he.lower inAsync).bind fun e e' he => ?_
      exact .pure (.singleton (.expr he))
  | _, _, .declare x m m' hi => by
      rw [Stmt.lower, Stmt.lower]
      refine (hi.lower inAsync).bind fun i i' hi => ?_
      exact .pure (.singleton (.declare x m m' hi))
  | _, _, .destructure p hi => by
      rw [Stmt.lower, Stmt.lower]
      refine (hi.lower inAsync).bind fun i i' hi => ?_
      exact .pure (.singleton (.destructure p hi))
  | _, _, .block hb => by
      rw [Stmt.lower, Stmt.lower]
      refine (hb.lower inAsync).bind fun b b' hb => ?_
      exact .pure (.singleton (.block hb))
  | _, _, .ifElse ht ha hb => by
      rw [Stmt.lower, Stmt.lower]
      refine (ht.lower inAsync).bind fun t t' ht => ?_
      refine (ha.lower inAsync).bind fun a a' ha => ?_
      refine (hb.lower inAsync).bind fun b b' hb => ?_
      exact .pure (.singleton (.ifElse ht ha.ofList hb))
  | _, _, .whileLoop ht hb => by
      rw [Stmt.lower, Stmt.lower]
      refine (ht.lower inAsync).bind fun t t' ht => ?_
      refine (hb.lower inAsync).bind fun b b' hb => ?_
      exact .pure (.singleton (.whileLoop ht hb.ofList))
  | _, _, .forLoop hi ht hu hb => by
      rw [Stmt.lower, Stmt.lower]
      refine (hi.lower inAsync).bind fun i i' hi => ?_
      refine (ht.lower inAsync).bind fun t t' ht => ?_
      refine (hu.lower inAsync).bind fun u u' hu => ?_
      refine (hb.lower inAsync).bind fun b b' hb => ?_
      exact .pure (.singleton (.forLoop hi ht hu hb.ofList))
  | _, _, .forEach x hi hb => by
      rw [Stmt.lower, Stmt.lower]
      refine (hi.lower inAsync).bind fun i i' hi => ?_
      refine (hb.lower inAsync).bind fun b b' hb => ?_
      exact .pure (.singleton (.forEach x hi hb.ofList))
  | _, _, .ret hv => by
      rw [Stmt.lower, Stmt.lower]
      refine (hv.lower inAsync).bind fun v v' hv => ?_
      exact .pure (.singleton (.ret hv))
  | _, _, .breakLoop => by
      rw [Stmt.lower]
      exact .pure (.singleton .breakLoop)
  | _, _, .continueLoop => by
      rw [Stmt.lower]
      exact .pure (.singleton .continueLoop)
  | _, _, .throw he => by
      rw [Stmt.lower, Stmt.lower]
      refine (he.lower inAsync).bind fun e e' he => ?_
      exact .pure (.singleton (.throw he))
  | _, _, .tryCatch p hb hh hf => by
      rw [Stmt.lower, Stmt.lower]
      refine (hb.lower inAsync).bind fun b b' hb => ?_
      refine (hh.lower inAsync).bind fun h h' hh => ?_
      refine (hf.lower inAsync).bind fun f f' hf => ?_
      exact .pure (.singleton (.tryCatch p hb.ofList hh hf))
  | _, _, .function hf => by
      rw [Stmt.lower, Stmt.lower]
      refine hf.lower.bind fun f f' hf => ?_
      exact .pure (.singleton (.function hf))
  | _, _, .holding hs => by
      rw [Stmt.lower, Stmt.lower]
      exact hs.lower inAsync

theorem Stmt.AlikeList.lower
    (inAsync : Bool) :
    {as bs : List Stmt} → Stmt.AlikeList as bs →
      Agree Stmt.AlikeList (Stmt.lowerList c inAsync as) (Stmt.lowerList c inAsync bs)
  | _, _, .nil => by
      rw [Stmt.lowerList]
      exact .pure .nil
  | _, _, .cons hs hss => by
      rw [Stmt.lowerList, Stmt.lowerList]
      refine (hs.lower inAsync).bind fun s s' hs => ?_
      refine (hss.lower inAsync).bind fun ss ss' hss => ?_
      exact .pure (hs.append hss)

theorem Stmt.AlikeOption.lower
    (inAsync : Bool) :
    {a b : Option Stmt} → Stmt.AlikeOption a b →
      Agree Stmt.AlikeOption (Stmt.lowerOption c inAsync a) (Stmt.lowerOption c inAsync b)
  | _, _, .none => by
      rw [Stmt.lowerOption]
      exact .pure .none
  | _, _, .some hs => by
      rw [Stmt.lowerOption, Stmt.lowerOption]
      refine (hs.lower inAsync).bind fun s s' hs => ?_
      exact .pure (.some hs.ofList)

theorem Item.Alike.lower
    (inAsync : Bool) :
    {i j : Item} → Item.Alike i j →
      Agree Item.Alike (i.lower c inAsync) (j.lower c inAsync)
  | ⟨acquire, _, _⟩, ⟨acquire', _, _⟩, .mk binding arity hacquire => by
      -- The check reads the binding and the number of values, which are no hints.
      have hcheck :
          c.checkBinding ⟨acquire, binding, arity⟩ = c.checkBinding ⟨acquire', binding, arity⟩ :=
        rfl
      rw [Item.lower, Item.lower, hcheck]
      refine .check ((hacquire.lower inAsync).bind fun acquire acquire' hacquire => ?_)
      exact .pure (.mk binding arity hacquire)

theorem Item.AlikeList.lower
    (inAsync : Bool) :
    {is js : List Item} → Item.AlikeList is js →
      Agree Item.AlikeList (Item.lowerList c inAsync is) (Item.lowerList c inAsync js)
  | _, _, .nil => by
      rw [Item.lowerList]
      exact .pure .nil
  | _, _, .cons hi his => by
      rw [Item.lowerList, Item.lowerList]
      refine (hi.lower inAsync).bind fun i i' hi => ?_
      refine (his.lower inAsync).bind fun is is' his => ?_
      exact .pure (.cons hi his)

/-- Alike scoped statements are lowered alike. -/
theorem Scoped.Alike.lower
    (inAsync : Bool) :
    {s t : Scoped} → Scoped.Alike s t →
      Agree Stmt.AlikeList (s.lower c inAsync) (t.lower c inAsync)
  | ⟨items, _, _⟩, ⟨items', _, _⟩, .mk isAsync hitems hbody => by
      have hlength : items.length = items'.length := hitems.length_eq
      have hempty : items.isEmpty = items'.isEmpty := by
        rw [Bool.eq_iff_iff, List.isEmpty_iff_length_eq_zero, List.isEmpty_iff_length_eq_zero,
          hlength]
      rw [Scoped.lower, Scoped.lower, hempty, hlength]
      by_cases hnone : items'.isEmpty
      · rw [if_pos hnone, if_pos hnone]
        exact fun k => .error _
      · rw [if_neg hnone, if_neg hnone]
        refine .check (.reserve _ fun n => ?_)
        refine (hitems.lower inAsync).bind fun items items' hitems => ?_
        refine (hbody.lower inAsync).bind fun body body' hbody => ?_
        exact .lift (Context.agree_expandScoped (.mk isAsync hitems hbody))

end

end Lowering

/-- Programs that differ in hints only are lowered alike by all conventions and settings:
both fail with the same error, or both succeed and the results differ in hints only. -/
theorem Program.lower_respects_alike
    (s : Settings) (c : Conventions) (a b : Program) (h : a.alike b = true) :
    (∃ e, a.lowerWith s c = .error e ∧ b.lowerWith s c = .error e) ∨
      ∃ p q, a.lowerWith s c = .ok p ∧ b.lowerWith s c = .ok q ∧ p.alike q = true := by
  have hbody := (Program.alike_iff.mp h).lower (s.context c) s.allowTopLevelAwait 0
  have hprogram :
      Except.Agree (fun p q => p.alike q = true) (a.lowerWith s c) (b.lowerWith s c) := by
    refine hbody.bind ?_
    rintro ⟨code, j⟩ ⟨code', j'⟩ ⟨hcode, -⟩
    exact .ok (Program.alike_iff.mpr hcode)
  exact hprogram.error_or_ok

/-- A program with a resource whose acquisition is spelled with or without brackets and with
a variable that may or may not be assigned again. -/
def Program.sampleOfHints (hint : Bool) (zero : Double) : Program :=
  ⟨[.holding
    ⟨[.bind (.new (.member (.ident "pool") (.string "lock") hint)) (.ofNames ["x", "y"])],
      [.declare "z" (some (.number zero)) hint, .ret (some (.ident "x"))], false⟩]⟩

/-- The two zeros are the same number. -/
theorem Program.lower_respects_alike_of_zeros :
    ∃ p q, (sampleOfHints true ⟨0⟩).lowerWith {} .lua = .ok p ∧
      (sampleOfHints false ⟨0x8000000000000000⟩).lowerWith {} .lua = .ok q ∧
        p.alike q = true := by
  have halike :
      (sampleOfHints true ⟨0⟩).alike (sampleOfHints false ⟨0x8000000000000000⟩) = true := by
    decide
  obtain ⟨p, hp⟩ : ∃ p, (sampleOfHints true ⟨0⟩).lowerWith {} .lua = .ok p := ⟨_, rfl⟩
  rcases lower_respects_alike {} .lua _ _ halike with ⟨e, he, -⟩ | hresult
  · exact nomatch he.symm.trans hp
  · exact hresult

end Bracket
