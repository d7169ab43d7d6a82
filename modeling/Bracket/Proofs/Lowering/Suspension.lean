import Bracket.Proofs.Lowering.Names
import Bracket.Proofs.Tree.Awaits
import Bracket.Target.Language

/-!
# Suspending statements

A scoped statement that suspends becomes the same code as one that does not, apart from
awaits around the calls that enter and leave its resources: three for each resource.

Two facts make this up.  Code that may suspend can contain more, but what could be lowered
before is lowered to the same code, so the parts of the statement do not change.  And the
expansion of one resource awaits its three calls and changes nothing else.
-/

namespace Bracket

/-! ## Code that may suspend -/

/-- Every result of the first computation is one of the second. -/
def Lowering.Within {α : Type} (m m' : Lowering α) : Prop :=
  ∀ k r, m.run k = .ok r → m'.run k = .ok r

namespace Lowering.Within

variable {α β : Type} {m m' : Lowering α} {f f' : α → Lowering β}

theorem refl (m : Lowering α) : Within m m := fun _ _ h => h

theorem bind
    (hm : Within m m') (hf : ∀ a, Within (f a) (f' a)) : Within (m >>= f) (m' >>= f') := by
  intro k r hrun
  obtain ⟨a, j, hfirst, hrest⟩ := bind_eq_ok.mp hrun
  exact bind_eq_ok.mpr ⟨a, j, hm k (a, j) hfirst, hf a j r hrest⟩

/-- The rest does not depend on where the code stands. -/
theorem last (hm : Within m m') (f : α → Lowering β) : Within (m >>= f) (m' >>= f) :=
  hm.bind fun a => refl (f a)

end Lowering.Within

section Lowering

open Lowering

variable (c : Context) (inAsync : Bool)

theorem Context.checkSuspension_within
    (isAsync : Bool) :
    Within (liftM (c.checkSuspension isAsync inAsync) : Lowering Unit)
      (liftM (c.checkSuspension isAsync true)) := by
  intro k r hrun
  obtain ⟨u, hcheck, rfl⟩ := lift_eq_ok.mp hrun
  refine lift_eq_ok.mpr ⟨u, ?_, rfl⟩
  cases inAsync with
  | true => exact hcheck
  | false =>
      cases isAsync with
      | false => exact hcheck
      | true =>
          -- Outside of code that may suspend, a suspending statement is refused.
          rw [Context.checkSuspension, if_pos rfl] at hcheck
          split at hcheck
          · exact nomatch hcheck
          · exact nomatch hcheck

mutual

/-- An expression that can be lowered is lowered to the same where it may suspend. -/
theorem Expr.lower_within : (e : Expr) → Within (e.lower c inAsync) (e.lower c true)
  | .literal _ => by
      rw [Expr.lower, Expr.lower]
      exact .refl _
  | .ident _ => by
      rw [Expr.lower, Expr.lower]
      exact .refl _
  | .binary l _ r => by
      rw [Expr.lower, Expr.lower]
      exact (Expr.lower_within l).bind fun _ => (Expr.lower_within r).last _
  | .unary _ e => by
      rw [Expr.lower, Expr.lower]
      exact (Expr.lower_within e).last _
  | .call f args => by
      rw [Expr.lower, Expr.lower]
      exact (Expr.lower_within f).bind fun _ => (Expr.lowerList_within args).last _
  | .methodCall r _ args => by
      rw [Expr.lower, Expr.lower]
      exact (Expr.lower_within r).bind fun _ => (Expr.lowerList_within args).last _
  | .member o p _ => by
      rw [Expr.lower, Expr.lower]
      exact (Expr.lower_within o).bind fun _ => (Expr.lower_within p).last _
  | .array es => by
      rw [Expr.lower, Expr.lower]
      exact (Expr.lowerList_within es).last _
  | .object ps => by
      rw [Expr.lower, Expr.lower]
      exact (Expr.lowerPairs_within ps).last _
  | .function _ => by
      rw [Expr.lower, Expr.lower]
      exact .refl _
  | .conditional t a b => by
      rw [Expr.lower, Expr.lower]
      exact (Expr.lower_within t).bind fun _ => (Expr.lower_within a).bind fun _ =>
        (Expr.lower_within b).last _
  | .assign t v => by
      rw [Expr.lower, Expr.lower]
      exact (Expr.lower_within t).bind fun _ => (Expr.lower_within v).last _
  | .await e => by
      rw [Expr.lower, Expr.lower]
      exact (Expr.lower_within e).last _

theorem Expr.lowerList_within :
    (es : List Expr) → Within (Expr.lowerList c inAsync es) (Expr.lowerList c true es)
  | [] => by
      rw [Expr.lowerList, Expr.lowerList]
      exact .refl _
  | e :: es => by
      rw [Expr.lowerList, Expr.lowerList]
      exact (Expr.lower_within e).bind fun _ => (Expr.lowerList_within es).last _

theorem Expr.lowerOption_within :
    (e : Option Expr) → Within (Expr.lowerOption c inAsync e) (Expr.lowerOption c true e)
  | none => by
      rw [Expr.lowerOption, Expr.lowerOption]
      exact .refl _
  | some e => by
      rw [Expr.lowerOption, Expr.lowerOption]
      exact (Expr.lower_within e).last _

theorem Expr.lowerPairs_within :
    (ps : List (String × Expr)) →
      Within (Expr.lowerPairs c inAsync ps) (Expr.lowerPairs c true ps)
  | [] => by
      rw [Expr.lowerPairs, Expr.lowerPairs]
      exact .refl _
  | (_, e) :: ps => by
      rw [Expr.lowerPairs, Expr.lowerPairs]
      exact (Expr.lower_within e).bind fun _ => (Expr.lowerPairs_within ps).last _

/-- A statement that can be lowered is lowered to the same where it may suspend. -/
theorem Stmt.lower_within : (s : Stmt) → Within (s.lower c inAsync) (s.lower c true)
  | .expr e => by
      rw [Stmt.lower, Stmt.lower]
      exact (Expr.lower_within e).last _
  | .declare _ i _ => by
      rw [Stmt.lower, Stmt.lower]
      exact (Expr.lowerOption_within i).last _
  | .destructure _ i => by
      rw [Stmt.lower, Stmt.lower]
      exact (Expr.lower_within i).last _
  | .block b => by
      rw [Stmt.lower, Stmt.lower]
      exact (Stmt.lowerList_within b).last _
  | .ifElse t a b => by
      rw [Stmt.lower, Stmt.lower]
      exact (Expr.lower_within t).bind fun _ => (Stmt.lower_within a).bind fun _ =>
        (Stmt.lowerOption_within b).last _
  | .whileLoop t b => by
      rw [Stmt.lower, Stmt.lower]
      exact (Expr.lower_within t).bind fun _ => (Stmt.lower_within b).last _
  | .forLoop i t u b => by
      rw [Stmt.lower, Stmt.lower]
      exact (Stmt.lowerOption_within i).bind fun _ => (Expr.lowerOption_within t).bind fun _ =>
        (Expr.lowerOption_within u).bind fun _ => (Stmt.lower_within b).last _
  | .forEach _ i b => by
      rw [Stmt.lower, Stmt.lower]
      exact (Expr.lower_within i).bind fun _ => (Stmt.lower_within b).last _
  | .ret v => by
      rw [Stmt.lower, Stmt.lower]
      exact (Expr.lowerOption_within v).last _
  | .breakLoop => by
      rw [Stmt.lower, Stmt.lower]
      exact .refl _
  | .continueLoop => by
      rw [Stmt.lower, Stmt.lower]
      exact .refl _
  | .throw e => by
      rw [Stmt.lower, Stmt.lower]
      exact (Expr.lower_within e).last _
  | .tryCatch b _ h f => by
      rw [Stmt.lower, Stmt.lower]
      exact (Stmt.lower_within b).bind fun _ => (Stmt.lowerOption_within h).bind fun _ =>
        (Stmt.lowerOption_within f).last _
  | .function _ => by
      rw [Stmt.lower, Stmt.lower]
      exact .refl _
  | .holding s => by
      rw [Stmt.lower, Stmt.lower]
      exact Scoped.lower_within s

theorem Stmt.lowerList_within :
    (ss : List Stmt) → Within (Stmt.lowerList c inAsync ss) (Stmt.lowerList c true ss)
  | [] => by
      rw [Stmt.lowerList, Stmt.lowerList]
      exact .refl _
  | s :: ss => by
      rw [Stmt.lowerList, Stmt.lowerList]
      exact (Stmt.lower_within s).bind fun _ => (Stmt.lowerList_within ss).last _

theorem Stmt.lowerOption_within :
    (s : Option Stmt) → Within (Stmt.lowerOption c inAsync s) (Stmt.lowerOption c true s)
  | none => by
      rw [Stmt.lowerOption, Stmt.lowerOption]
      exact .refl _
  | some s => by
      rw [Stmt.lowerOption, Stmt.lowerOption]
      exact (Stmt.lower_within s).last _

theorem Item.lower_within : (i : Item) → Within (i.lower c inAsync) (i.lower c true)
  | ⟨acquire, _, _⟩ => by
      rw [Item.lower, Item.lower]
      exact (Within.refl _).bind fun _ => (Expr.lower_within acquire).last _

theorem Item.lowerList_within :
    (is : List Item) → Within (Item.lowerList c inAsync is) (Item.lowerList c true is)
  | [] => by
      rw [Item.lowerList, Item.lowerList]
      exact .refl _
  | i :: is => by
      rw [Item.lowerList, Item.lowerList]
      exact (Item.lower_within i).bind fun _ => (Item.lowerList_within is).last _

/-- A scoped statement that can be lowered is lowered to the same where it may suspend. -/
theorem Scoped.lower_within : (s : Scoped) → Within (s.lower c inAsync) (s.lower c true)
  | ⟨items, body, isAsync⟩ => by
      rw [Scoped.lower, Scoped.lower]
      by_cases hempty : items.isEmpty
      · rw [if_pos hempty, if_pos hempty]
        exact .refl _
      · rw [if_neg hempty, if_neg hempty]
        exact (c.checkSuspension_within inAsync isAsync).bind fun _ =>
          (Within.refl _).bind fun _ => (Item.lowerList_within items).bind fun _ =>
            (Stmt.lowerList_within body).last _

end

end Lowering

/-! ## The awaits of an expansion -/

/-- The second code is the first one with awaits around calls: these are the operands of the
awaits that it has beyond those of the first, and without them the two are equal. -/
structure Stmt.Suspends (calls : List Expr) (code code' : List Stmt) : Prop where
  awaited : (Stmt.awaitedList code').Perm (Stmt.awaitedList code ++ calls)
  dropped : ∀ drop : Expr → Bool, (∀ e ∈ calls, drop e = true) →
    Stmt.dropAwaitsList drop code' = Stmt.dropAwaitsList drop code

theorem Stmt.Suspends.refl (code : List Stmt) : Stmt.Suspends [] code code where
  awaited := by simp
  dropped := fun _ _ => rfl

mutual

theorem Pattern.awaited_indexedBindings
    (base : UInt64) {source : Expr} (h : source.awaited = []) :
    (p : Pattern) → Stmt.awaitedList (p.indexedBindings base source) = []
  | .name x => by
      simp [Pattern.indexedBindings, Stmt.letVar, Stmt.awaitedList, Stmt.awaited,
        Expr.awaitedOption, h]
  | .tuple slots => by
      rw [Pattern.indexedBindings]
      exact Pattern.awaited_indexedSlots base h 0 slots

theorem Pattern.awaited_indexedSlots
    (base : UInt64) {source : Expr} (h : source.awaited = []) (i : Nat) :
    (ps : List Pattern) → Stmt.awaitedList (Pattern.indexedSlots base source i ps) = []
  | [] => by simp [Pattern.indexedSlots, Stmt.awaitedList]
  | p :: ps => by
      have hindex (position : Double) : (source.index (.number position)).awaited = [] := by
        simp [Expr.index, Expr.number, Expr.awaited, h]
      simp [Pattern.indexedSlots, Pattern.awaited_indexedBindings base (hindex _) p,
        Pattern.awaited_indexedSlots base h (i + 1) ps]

end

theorem Expr.awaited_suspendIf
    (isAsync : Bool) (call : Expr) :
    (call.suspendIf isAsync).awaited = (if isAsync then [call] else []) ++ call.awaited := by
  cases isAsync <;> simp [Expr.suspendIf, Expr.awaited]

theorem Expr.dropAwaits_suspendIf
    {drop : Expr → Bool} {call : Expr} (isAsync : Bool) (h : drop call = true) :
    (call.suspendIf isAsync).dropAwaits drop = call.dropAwaits drop := by
  cases isAsync <;> simp [Expr.suspendIf, Expr.dropAwaits, h]

namespace Context

variable (c : Context)

/-- The calls that enter a resource and leave it, with an error and without one. -/
def handlerCalls (n : Nat) : List Expr :=
  [c.enterCall n, c.exitCall n (.ident (c.temp .error n)), c.exitCall n .null]

/-- The expression calls the method that enters or the one that leaves, on one of the first
`n` resources. -/
def isHandlerCall (n : Nat) : Expr → Bool
  | .methodCall (.ident x) m _ =>
      (m == c.conventions.enterMethod || m == c.conventions.exitMethod) &&
        (List.range n).any fun k => x == c.temp .manager k
  | _ => false

theorem isHandlerCall_of_mem
    {n k : Nat} {e : Expr} (hk : k < n) (he : e ∈ c.handlerCalls k) :
    c.isHandlerCall n e = true := by
  have hmanager : (List.range n).any (fun j => c.temp .manager k == c.temp .manager j) = true :=
    List.any_eq_true.mpr ⟨k, List.mem_range.mpr hk, beq_self_eq_true _⟩
  simp only [handlerCalls, List.mem_cons, List.not_mem_nil, or_false] at he
  rcases he with rfl | rfl | rfl
  · simp only [enterCall, isHandlerCall, hmanager, beq_self_eq_true, Bool.true_or, Bool.and_self]
  · simp only [exitCall, isHandlerCall, hmanager, beq_self_eq_true, Bool.or_true, Bool.and_self]
  · simp only [exitCall, isHandlerCall, hmanager, beq_self_eq_true, Bool.or_true, Bool.and_self]

theorem awaited_bindEntryValue
    (n : Nat) (binding : Option Pattern) : Stmt.awaitedList (c.bindEntryValue n binding) = [] := by
  have hvalue : (Expr.ident (c.temp .value n)).awaited = [] := by simp [Expr.awaited]
  match binding with
  | none => simp [bindEntryValue, Stmt.awaitedList]
  | some (.name x) =>
      simp [bindEntryValue, Stmt.letVar, Stmt.awaitedList, Stmt.awaited, Expr.awaitedOption, hvalue]
  | some (.tuple slots) =>
      by_cases hnative : c.conventions.nativeUnpacking
      · simp [bindEntryValue, hnative, Stmt.awaitedList, Stmt.awaited, hvalue]
      · simp [bindEntryValue, hnative, Pattern.awaited_indexedBindings _ hvalue]

theorem awaited_enterStatements
    (n : Nat) (item : Item) (enter : Expr) :
    Stmt.awaitedList (c.enterStatements n item enter) = item.acquire.awaited ++ enter.awaited := by
  cases hbinding : item.binding with
  | none =>
      simp [enterStatements, hbinding, Stmt.letConst, Stmt.awaitedList, Stmt.awaited,
        Expr.awaitedOption]
  | some p =>
      simp [enterStatements, hbinding, Stmt.letConst, Stmt.awaitedList, Stmt.awaited,
        Expr.awaitedOption]

theorem awaited_enterCall (n : Nat) : (c.enterCall n).awaited = [] := by
  simp [enterCall, Expr.awaited, Expr.awaitedList]

theorem awaited_exitCall (n : Nat) (e : Expr) : (c.exitCall n e).awaited = e.awaited := by
  simp [exitCall, Expr.awaited, Expr.awaitedList]

/-- The awaits of an expansion are those of the acquisition and of the statements inside, and
in a statement that suspends those around the calls of the resource. -/
theorem awaited_expandGuarded
    (isAsync : Bool) (n : Nat) (item : Item) (inner : List Stmt) :
    Stmt.awaitedList (c.expandGuarded isAsync n item inner) =
      item.acquire.awaited ++ ((if isAsync then [c.enterCall n] else []) ++
        (Stmt.awaitedList inner ++
          (if isAsync then [c.exitCall n (.ident (c.temp .error n)), c.exitCall n .null]
            else []))) := by
  have henter := Expr.awaited_suspendIf isAsync (c.enterCall n)
  have hexit (e : Expr) := Expr.awaited_suspendIf isAsync (c.exitCall n e)
  simp only [awaited_enterCall, awaited_exitCall] at henter hexit
  have herror :
      (c.onError isAsync n).awaited =
        if isAsync then [c.exitCall n (.ident (c.temp .error n))] else [] := by
    simp [onError, Expr.negate, Expr.bool, Stmt.awaited, Stmt.awaitedList, Stmt.awaitedOption,
      Expr.awaited, hexit]
  have hleave :
      (c.onLeave isAsync n).awaited = if isAsync then [c.exitCall n .null] else [] := by
    simp [onLeave, Expr.negate, Expr.null, Stmt.awaited, Stmt.awaitedList, Stmt.awaitedOption,
      Expr.awaited, hexit]
  have hbody :
      Stmt.awaitedList (c.expandGuarded isAsync n item inner) =
        item.acquire.awaited ++ (((c.enterCall n).suspendIf isAsync).awaited ++
          (Stmt.awaitedList inner ++
            ((c.onError isAsync n).awaited ++ (c.onLeave isAsync n).awaited))) := by
    simp [expandGuarded, awaited_enterStatements, awaited_bindEntryValue, Stmt.letVar,
      Stmt.awaitedList, Stmt.awaited, Expr.awaitedOption, Stmt.awaitedOption, Expr.bool,
      Expr.awaited]
  rw [hbody, henter, herror, hleave]
  cases isAsync <;> simp

/-- Without the awaits of the calls of its resource, an expansion is the same whether it
suspends or not. -/
theorem dropAwaits_expandGuarded
    {drop : Expr → Bool} {inner inner' : List Stmt} (n : Nat) (item : Item)
    (hcalls : ∀ e ∈ c.handlerCalls n, drop e = true)
    (hinner : Stmt.dropAwaitsList drop inner' = Stmt.dropAwaitsList drop inner) :
    Stmt.dropAwaitsList drop (c.expandGuarded true n item inner') =
      Stmt.dropAwaitsList drop (c.expandGuarded false n item inner) := by
  have hcall (call : Expr) (hmem : call ∈ c.handlerCalls n) :
      (call.suspendIf true).dropAwaits drop = (call.suspendIf false).dropAwaits drop := by
    rw [Expr.dropAwaits_suspendIf true (hcalls call hmem),
      Expr.dropAwaits_suspendIf false (hcalls call hmem)]
  have henter := hcall (c.enterCall n) (by simp [handlerCalls])
  have hfailed := hcall (c.exitCall n (.ident (c.temp .error n))) (by simp [handlerCalls])
  have hleft := hcall (c.exitCall n .null) (by simp [handlerCalls])
  have hstatements :
      Stmt.dropAwaitsList drop
          (c.enterStatements n item ((c.enterCall n).suspendIf true)) =
        Stmt.dropAwaitsList drop
          (c.enterStatements n item ((c.enterCall n).suspendIf false)) := by
    cases hbinding : item.binding with
    | none =>
        simp [enterStatements, hbinding, Stmt.dropAwaitsList, Stmt.dropAwaits, henter]
    | some p =>
        simp [enterStatements, hbinding, Stmt.letConst, Stmt.dropAwaitsList, Stmt.dropAwaits,
          Expr.dropAwaitsOption, henter]
  have herror : (c.onError true n).dropAwaits drop = (c.onError false n).dropAwaits drop := by
    simp [onError, Expr.negate, Stmt.dropAwaits, Stmt.dropAwaitsList, Expr.dropAwaits, hfailed]
  have hleave : (c.onLeave true n).dropAwaits drop = (c.onLeave false n).dropAwaits drop := by
    simp [onLeave, Stmt.dropAwaits, Stmt.dropAwaitsList, hleft]
  simp [expandGuarded, hstatements, herror, hleave, hinner, Stmt.dropAwaitsList, Stmt.dropAwaits,
    Stmt.dropAwaitsOption]

variable {c}

/-- Around code that suspends, the expansion of a resource awaits its three calls. -/
theorem suspends_expandGuarded
    {calls : List Expr} {inner inner' : List Stmt} (n : Nat) (item : Item)
    (h : Stmt.Suspends calls inner inner') :
    Stmt.Suspends (c.handlerCalls n ++ calls) (c.expandGuarded false n item inner)
      (c.expandGuarded true n item inner') where
  awaited := by
    rw [awaited_expandGuarded, awaited_expandGuarded, if_pos rfl, if_pos rfl, handlerCalls]
    generalize item.acquire.awaited = acquire
    generalize c.enterCall n = enter
    generalize c.exitCall n (.ident (c.temp .error n)) = failed
    generalize c.exitCall n .null = left
    have hexits :
        (Stmt.awaitedList inner' ++ [failed, left]).Perm
          (Stmt.awaitedList inner ++ ([failed, left] ++ calls)) := by
      refine (h.awaited.append_right [failed, left]).trans ?_
      rw [List.append_assoc]
      exact List.perm_append_comm.append_left _
    calc
      (acquire ++ ([enter] ++ (Stmt.awaitedList inner' ++ [failed, left]))).Perm
          (acquire ++ enter :: (Stmt.awaitedList inner ++ ([failed, left] ++ calls))) :=
        (hexits.cons enter).append_left acquire
      List.Perm _ (enter :: (acquire ++ (Stmt.awaitedList inner ++ ([failed, left] ++ calls)))) :=
        List.perm_middle
      List.Perm _ (acquire ++ Stmt.awaitedList inner ++ enter :: ([failed, left] ++ calls)) := by
        rw [← List.append_assoc]
        exact List.perm_middle.symm
      _ = _ := by simp
  dropped := fun drop hdrop =>
    c.dropAwaits_expandGuarded n item
      (fun e he => hdrop e (List.mem_append_left calls he))
      (h.dropped drop fun e he => hdrop e (List.mem_append_right _ he))

/-- Expansions of resources that suspend await the calls of all of them. -/
theorem suspends_expandItems
    (hstyle : c.conventions.expansion ≠ .protectedCall) (n : Nat) (items : List Item)
    (inner : List Stmt) :
    ∃ code code', c.expandItems false n items inner = .ok code ∧
      c.expandItems true n items inner = .ok code' ∧
      Stmt.Suspends ((List.range' n items.length).flatMap c.handlerCalls) code code' := by
  induction items generalizing n with
  | nil => exact ⟨inner, inner, rfl, rfl, .refl inner⟩
  | cons item items ih =>
      obtain ⟨held, held', hheld, hheld', hsuspends⟩ := ih (n + 1)
      refine ⟨c.expandGuarded false n item held, c.expandGuarded true n item held', ?_, ?_, ?_⟩
      · rw [expandItems, hheld]
        exact if_neg hstyle
      · rw [expandItems, hheld']
        exact if_neg hstyle
      · rw [List.length_cons, List.range'_succ, List.flatMap_cons]
        exact suspends_expandGuarded n item hsuspends

theorem length_handlerCalls
    (n : Nat) : ((List.range n).flatMap c.handlerCalls).length = 3 * n := by
  induction n with
  | zero => rfl
  | succ n ih => simp [List.range_succ, ih, handlerCalls, Nat.mul_succ]

end Context

/-- A statement that can be lowered can also be lowered when it suspends, for a language with
catch and finally clauses that can suspend.  The two results are equal without their awaits.
The awaits that come in addition are three for each resource, around the call that enters it
and the two that leave it, and without the awaits of such calls the results are already
equal. -/
theorem Scoped.lower_async_adds_awaits
    (st : Settings) (c : Conventions) (s : Scoped) (code : List Stmt)
    (hstyle : c.expansion = .tryCatchFinally) (hsuspend : c.supportsSuspension = true)
    (h : Scoped.lowerWith st c ⟨s.items, s.body, false⟩ = .ok code) :
    ∃ code', Scoped.lowerWith st c ⟨s.items, s.body, true⟩ = .ok code' ∧
      Stmt.dropAwaitsList (fun _ => true) code' = Stmt.dropAwaitsList (fun _ => true) code ∧
      (Stmt.awaitedList code').length = (Stmt.awaitedList code).length + 3 * s.items.length ∧
      (Stmt.awaitedList code').Perm
        (Stmt.awaitedList code ++
          (List.range s.items.length).flatMap (st.context c).handlerCalls) ∧
      Stmt.dropAwaitsList ((st.context c).isHandlerCall s.items.length) code' =
        Stmt.dropAwaitsList ((st.context c).isHandlerCall s.items.length) code := by
  have hprotected : (st.context c).conventions.expansion ≠ .protectedCall := by
    simp [Settings.context, hstyle]
  have hnative : (st.context c).conventions.expansion ≠ .native := by
    simp [Settings.context, hstyle]
  obtain ⟨⟨code₀, j⟩, hrun, hcode⟩ := Except.bind_eq_ok.mp h
  cases hcode
  obtain ⟨hne, -, items, body, i, hitems, hbody, hexpand⟩ := Scoped.lower_eq_ok.mp hrun
  have hlength : items.length = s.items.length := (Item.lowersItem_of_lowerList hitems).1
  obtain ⟨plain, code', hplain, hasync, hsuspends⟩ :=
    Context.suspends_expandItems hprotected 0 items body
  -- The parts are lowered to the same code, so the plain expansion is the given one.
  obtain rfl : plain = code :=
    Except.ok.inj (hplain.symm.trans ((if_neg hnative).symm.trans hexpand))
  have hrun' :
      (Scoped.lower (st.context c) true ⟨s.items, s.body, true⟩).run 0 = .ok (code', j) := by
    have hcheck : (st.context c).checkSuspension true true = .ok () := by
      simp [Context.checkSuspension, Settings.context, hsuspend]
    exact Scoped.lower_eq_ok.mpr ⟨hne, hcheck, items, body, i,
      Item.lowerList_within _ _ _ _ _ hitems, Stmt.lowerList_within _ _ _ _ _ hbody,
      (if_neg hnative).trans hasync⟩
  rw [hlength, ← List.range_eq_range'] at hsuspends
  refine ⟨code', ?_, hsuspends.dropped _ fun _ _ => rfl, ?_, hsuspends.awaited,
    hsuspends.dropped _ fun e he => ?_⟩
  · exact Except.bind_eq_ok.mpr ⟨(code', j), hrun', rfl⟩
  · rw [hsuspends.awaited.length_eq, List.length_append, Context.length_handlerCalls]
  · obtain ⟨k, hk, he⟩ := List.mem_flatMap.mp he
    exact Context.isHandlerCall_of_mem _ (List.mem_range.mp hk) he

/-- A statement with two resources, which awaits in an acquisition and in its body. -/
def Scoped.sampleOfAwaits : Scoped :=
  ⟨[.bind (.new (.await (.call (.ident "open") []))) (.name "x"), .new (.ident "lock")],
    [.expr (.await (.ident "x"))], false⟩

/-- Two awaits of the user and six of the two resources. -/
theorem Scoped.lower_async_adds_awaits_of_two :
    ∃ code, Scoped.lowerWith {} .typescript
        ⟨sampleOfAwaits.items, sampleOfAwaits.body, true⟩ = .ok code ∧
      (Stmt.awaitedList code).length = 8 := by
  obtain ⟨plain, hplain⟩ :
      ∃ plain, Scoped.lowerWith {} .typescript
        ⟨sampleOfAwaits.items, sampleOfAwaits.body, false⟩ = .ok plain := ⟨_, rfl⟩
  obtain ⟨code, hcode, -, hlength, -⟩ :=
    lower_async_adds_awaits {} .typescript sampleOfAwaits plain rfl rfl hplain
  cases hplain
  exact ⟨code, hcode, hlength⟩

end Bracket
