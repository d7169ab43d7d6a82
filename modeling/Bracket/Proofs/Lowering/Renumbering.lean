import Bracket.Proofs.Lowering.Congruence
import Bracket.Proofs.Lowering.Names
import Bracket.Proofs.Tree.Renaming
import Bracket.Proofs.Tree.Tokens

/-!
# Lowering from another number on

What a statement becomes depends on the statements before it only through the number of
its first resource.  From a number that is larger by `k`, lowering fails with the same
error or gives the same code with `k` added to the number of every generated name; in
both cases it uses up one number for each resource.

The names of the source must not be moved with the generated ones.  The induction asks
no more than that of the renaming, so it also applies to the renaming that does nothing,
which gives the count of numbers for sources with arbitrary names.
-/

namespace Bracket

/-! ## Numbers of generated names -/

namespace Role

def all : List Role := [.manager, .value, .failed, .error, .outcome]

theorem mem_all (role : Role) : role ∈ all := by
  cases role <;> decide

end Role

namespace Context

/-- The number that ends a name, if it is generated in the given role. -/
def tempNumber (c : Context) (role : Role) (x : String) : Nat :=
  Nat.ofDigitChars 10 (x.toList.drop (c.tempPrefix ++ role.text).toList.length) 0

/-- The role and the number of a generated name. -/
def tempParts? (c : Context) (x : String) : Option (Role × Nat) :=
  Role.all.findSome? fun role =>
    if x = c.temp role (c.tempNumber role x) then some (role, c.tempNumber role x) else none

/-- The name with `k` added to its number, if it is generated. -/
def renumber (c : Context) (k : Nat) (x : String) : String :=
  match c.tempParts? x with
  | some (role, n) => c.temp role (n + k)
  | none => x

/-- A renaming that adds `k` to the numbers of generated names and keeps all others. -/
structure Renumbers (c : Context) (k : Nat) (f : String → String) : Prop where
  temp : ∀ role n, f (c.temp role n) = c.temp role (n + k)
  other : ∀ x, (∀ role n, c.temp role n ≠ x) → f x = x

theorem tempNumber_temp
    (c : Context) (role : Role) (n : Nat) : c.tempNumber role (c.temp role n) = n := by
  have htext :
      (c.temp role n).toList = (c.tempPrefix ++ role.text).toList ++ Nat.toDigits 10 n := by
    rw [temp, String.toList_append, Nat.toList_repr]
  rw [tempNumber, htext, List.drop_left, Nat.ofDigitChars_toDigits (by decide) (by decide)]

theorem tempParts?_eq_some
    {c : Context} {x : String} {role : Role} {n : Nat} :
    c.tempParts? x = some (role, n) ↔ x = c.temp role n := by
  have hsound {parts : Role × Nat} (h : c.tempParts? x = some parts) :
      x = c.temp parts.1 parts.2 := by
    obtain ⟨role', -, h⟩ := List.exists_of_findSome?_eq_some h
    by_cases hx : x = c.temp role' (c.tempNumber role' x)
    · rw [if_pos hx] at h
      cases h
      exact hx
    · rw [if_neg hx] at h
      cases h
  constructor
  · exact hsound
  · intro hx
    cases hparts : c.tempParts? x with
    | some parts =>
        obtain ⟨hrole, hnumber⟩ := c.temp_injective ((hsound hparts).symm.trans hx)
        rw [← hrole, ← hnumber]
    | none =>
        have hrole := List.findSome?_eq_none_iff.mp hparts role role.mem_all
        rw [hx, tempNumber_temp, if_pos rfl] at hrole
        cases hrole

theorem renumbers_renumber (c : Context) (k : Nat) : c.Renumbers k (c.renumber k) where
  temp role n := by
    rw [renumber, tempParts?_eq_some.mpr rfl]
  other x h := by
    have hnone : c.tempParts? x = none := by
      cases hx : c.tempParts? x with
      | none => rfl
      | some parts => exact absurd (tempParts?_eq_some.mp hx).symm (h parts.1 parts.2)
    rw [renumber, hnone]

theorem renumbers_id (c : Context) : c.Renumbers 0 id where
  temp _ _ := rfl
  other _ _ := rfl

theorem renumber_of_not_isReserved
    {c : Context} {x : String} (k : Nat) (h : c.isReserved x = false) : c.renumber k x = x := by
  refine (c.renumbers_renumber k).other x ?_
  rintro role n rfl
  rw [isReserved_temp] at h
  cases h

end Context

/-! ## Computations that move -/

/-- From a number larger by `k` the second computation fails with the same error, or it
gives the image of the result; both computations use up `count` numbers. -/
def Lowering.Moves
    {α β : Type} (k count : Nat) (f : α → β) (m : Lowering α) (m' : Lowering β) : Prop :=
  ∀ n, Except.Agree (fun r r' => r.2 = n + count ∧ r' = (f r.1, r.2 + k))
    (m.run n) (m'.run (n + k))

namespace Lowering.Moves

variable {α β γ δ : Type} {k i j : Nat} {f : α → β} {g : γ → δ}

theorem pure
    {a : α} {b : β} (h : b = f a) : Moves k 0 f (Pure.pure a) (Pure.pure b) := by
  subst h
  exact fun n => .ok ⟨rfl, rfl⟩

theorem bind
    {m : Lowering α} {m' : Lowering β} {l : α → Lowering γ} {l' : β → Lowering δ}
    (h : Moves k i f m m') (hl : ∀ a, Moves k j g (l a) (l' (f a))) :
    Moves k (i + j) g (m >>= l) (m' >>= l') := by
  intro n
  rw [StateT.run_bind, StateT.run_bind]
  refine (h n).bind ?_
  rintro ⟨a, _⟩ _ ⟨rfl, rfl⟩
  simpa only [Nat.add_assoc] using hl a (n + i)

/-- The last step but one, when only the result is put together after it. -/
theorem last
    {m : Lowering α} {m' : Lowering β} {a : α → γ} {b : β → δ}
    (h : Moves k i f m m') (hg : ∀ x, b (f x) = g (a x)) :
    Moves k i g (m >>= fun x => Pure.pure (a x)) (m' >>= fun x => Pure.pure (b x)) := by
  rw [← Nat.add_zero i]
  exact bind h fun x => pure (hg x)

theorem lift
    {x : Except LoweringError α} {y : Except LoweringError β}
    (h : Except.Agree (fun a b => b = f a) x y) :
    Moves k 0 f (liftM x : Lowering α) (liftM y : Lowering β) := by
  intro n
  rw [lift_run, lift_run]
  refine h.bind ?_
  rintro a _ rfl
  exact .ok ⟨rfl, rfl⟩

theorem check
    {x : Except LoweringError Unit} {m : Lowering γ} {m' : Lowering δ}
    (h : Moves k j g m m') :
    Moves k j g ((liftM x : Lowering Unit) >>= fun _ => m)
      ((liftM x : Lowering Unit) >>= fun _ => m') := by
  have hx : Except.Agree (fun a b : Unit => b = id a) x x := by
    cases x with
    | error e => exact .error e
    | ok u => exact .ok rfl
  rw [← Nat.zero_add j]
  exact bind (lift hx) fun _ => h

theorem reserve
    {l : Nat → Lowering γ} {l' : Nat → Lowering δ} (count : Nat)
    (h : ∀ n, Moves k j g (l n) (l' (n + k))) :
    Moves k (count + j) g (Lowering.reserve count >>= l) (Lowering.reserve count >>= l') := by
  have hreserve : Moves k count (· + k) (Lowering.reserve count) (Lowering.reserve count) :=
    fun n => .ok ⟨rfl, by simp; omega⟩
  exact hreserve.bind h

end Lowering.Moves

/-! ## Renamed expansions -/

section

variable (f : String → String)

mutual

theorem Pattern.renameList_indexedBindings
    (base : UInt64) (source : Expr) :
    (p : Pattern) →
      Stmt.renameList f (p.indexedBindings base source) =
        (p.rename f).indexedBindings base (source.rename f)
  | .name _ => rfl
  | .tuple slots => Pattern.renameList_indexedSlots base source 0 slots

theorem Pattern.renameList_indexedSlots
    (base : UInt64) (source : Expr) (i : Nat) :
    (ps : List Pattern) →
      Stmt.renameList f (Pattern.indexedSlots base source i ps) =
        Pattern.indexedSlots base (source.rename f) i (Pattern.renameList f ps)
  | [] => rfl
  | p :: ps => by
      have hslot := Pattern.renameList_indexedBindings base
        (.index source (.number (Double.ofNat (UInt64.ofNat i + base).toNat))) p
      have hrest := Pattern.renameList_indexedSlots base source (i + 1) ps
      rw [Pattern.indexedSlots, Stmt.renameList_append, hslot, hrest]
      rfl

end

mutual

/-- Returns are packed in renamed code as in the code. -/
theorem Stmt.packReturns_rename
    (depth : Nat) :
    (s : Stmt) →
      Except.Agree (fun r r' => r' = (r.1.rename f, r.2))
        (s.packReturns depth) ((s.rename f).packReturns depth)
  | .ret none | .ret (some _) => .ok rfl
  | .breakLoop | .continueLoop => by
      rw [Stmt.rename, Stmt.packReturns]
      by_cases hdepth : depth = 0
      · rw [if_pos hdepth]
        exact .error _
      · rw [if_neg hdepth]
        exact .ok rfl
  | .block b => by
      rw [Stmt.rename, Stmt.packReturns, Stmt.packReturns]
      refine (Stmt.packReturnsList_rename depth b).bind ?_
      rintro ⟨b, found⟩ _ rfl
      exact .ok rfl
  | .ifElse t a b => by
      rw [Stmt.rename, Stmt.packReturns, Stmt.packReturns]
      refine (Stmt.packReturns_rename depth a).bind ?_
      rintro ⟨a, found⟩ _ rfl
      refine (Stmt.packReturnsOption_rename depth b).bind ?_
      rintro ⟨b, found'⟩ _ rfl
      exact .ok rfl
  | .whileLoop t b => by
      rw [Stmt.rename, Stmt.packReturns, Stmt.packReturns]
      refine (Stmt.packReturns_rename (depth + 1) b).bind ?_
      rintro ⟨b, found⟩ _ rfl
      exact .ok rfl
  | .forLoop i t u b => by
      rw [Stmt.rename, Stmt.packReturns, Stmt.packReturns]
      refine (Stmt.packReturns_rename (depth + 1) b).bind ?_
      rintro ⟨b, found⟩ _ rfl
      exact .ok rfl
  | .forEach x i b => by
      rw [Stmt.rename, Stmt.packReturns, Stmt.packReturns]
      refine (Stmt.packReturns_rename (depth + 1) b).bind ?_
      rintro ⟨b, found⟩ _ rfl
      exact .ok rfl
  | .tryCatch b p h g => by
      rw [Stmt.rename, Stmt.packReturns, Stmt.packReturns]
      refine (Stmt.packReturns_rename depth b).bind ?_
      rintro ⟨b, found⟩ _ rfl
      refine (Stmt.packReturnsOption_rename depth h).bind ?_
      rintro ⟨h, found'⟩ _ rfl
      refine (Stmt.packReturnsOption_rename depth g).bind ?_
      rintro ⟨g, found''⟩ _ rfl
      exact .ok rfl
  | .holding ⟨items, body, isAsync⟩ => by
      rw [Stmt.rename, Scoped.rename, Stmt.packReturns, Stmt.packReturns]
      refine (Stmt.packReturnsList_rename depth body).bind ?_
      rintro ⟨body, found⟩ _ rfl
      exact .ok rfl
  | .expr _ | .declare .. | .destructure .. | .throw _ | .function ⟨_, _, _, _⟩ => .ok rfl

theorem Stmt.packReturnsList_rename
    (depth : Nat) :
    (ss : List Stmt) →
      Except.Agree (fun r r' => r' = (Stmt.renameList f r.1, r.2))
        (Stmt.packReturnsList depth ss) (Stmt.packReturnsList depth (Stmt.renameList f ss))
  | [] => .ok rfl
  | s :: ss => by
      rw [Stmt.renameList, Stmt.packReturnsList, Stmt.packReturnsList]
      refine (Stmt.packReturns_rename depth s).bind ?_
      rintro ⟨s, found⟩ _ rfl
      refine (Stmt.packReturnsList_rename depth ss).bind ?_
      rintro ⟨ss, found'⟩ _ rfl
      exact .ok rfl

theorem Stmt.packReturnsOption_rename
    (depth : Nat) :
    (s : Option Stmt) →
      Except.Agree (fun r r' => r' = (Stmt.renameOption f r.1, r.2))
        (Stmt.packReturnsOption depth s) (Stmt.packReturnsOption depth (Stmt.renameOption f s))
  | none => .ok rfl
  | some s => by
      rw [Stmt.renameOption, Stmt.packReturnsOption, Stmt.packReturnsOption]
      refine (Stmt.packReturns_rename depth s).bind ?_
      rintro ⟨s, found⟩ _ rfl
      exact .ok rfl

end

theorem Expr.rename_suspendIf
    (isAsync : Bool) (call : Expr) :
    (call.suspendIf isAsync).rename f = (call.rename f).suspendIf isAsync := by
  cases isAsync <;> rfl

end

namespace Context

namespace Renumbers

variable {c : Context} {k : Nat} {f : String → String} (hf : c.Renumbers k f) (n : Nat)

include hf

attribute [local simp] Expr.rename Expr.renameList Expr.renameOption Stmt.rename Stmt.renameList
  Stmt.renameOption Func.rename

theorem pcall : f "pcall" = "pcall" := hf.other "pcall" fun role n => c.temp_ne_pcall role n

theorem table : f "table" = "table" := hf.other "table" fun role n => c.temp_ne_table role n

theorem bindEntryValue
    (binding : Option Pattern) :
    Stmt.renameList f (c.bindEntryValue n binding) =
      c.bindEntryValue (n + k) (binding.map (Pattern.rename f)) := by
  have hvalue : (Expr.ident (c.temp .value n)).rename f = .ident (c.temp .value (n + k)) := by
    rw [Expr.rename, hf.temp]
  match binding with
  | none => rfl
  | some (.name x) =>
      have hbound := Pattern.renameList_indexedBindings f 0 (.ident (c.temp .value n)) (.name x)
      rw [hvalue] at hbound
      exact hbound
  | some (.tuple slots) =>
      by_cases hnative : c.conventions.nativeUnpacking
      · simp [Context.bindEntryValue, hnative, hf.temp, Pattern.rename]
      · have hbound := Pattern.renameList_indexedBindings f c.conventions.indexBase
          (.ident (c.temp .value n)) (.tuple slots)
        simpa [Context.bindEntryValue, hnative, hf.temp, Pattern.rename] using hbound

theorem enterCall : (c.enterCall n).rename f = c.enterCall (n + k) := by
  simp [Context.enterCall, hf.temp]

theorem exitCall
    (argument : Expr) :
    (c.exitCall n argument).rename f = c.exitCall (n + k) (argument.rename f) := by
  simp [Context.exitCall, hf.temp]

theorem outcomeAt (i : Nat) : (c.outcomeAt n i).rename f = c.outcomeAt (n + k) i := by
  simp [Context.outcomeAt, Expr.index, Expr.number, hf.temp]

theorem enterStatements
    (item : Item) (enter : Expr) :
    Stmt.renameList f (c.enterStatements n item enter) =
      c.enterStatements (n + k) (item.rename f) (enter.rename f) := by
  obtain ⟨acquire, binding, arity⟩ := item
  cases binding <;>
    simp [Context.enterStatements, Item.rename, Stmt.letConst, hf.temp]

theorem onError (isAsync : Bool) : (c.onError isAsync n).rename f = c.onError isAsync (n + k) := by
  simp [Context.onError, Expr.negate, Expr.bool, Expr.rename_suspendIf, hf.exitCall, hf.temp]

theorem onLeave (isAsync : Bool) : (c.onLeave isAsync n).rename f = c.onLeave isAsync (n + k) := by
  simp [Context.onLeave, Expr.negate, Expr.null, Expr.rename_suspendIf, hf.exitCall, hf.temp]

theorem onSuccess
    (returns : Bool) : (c.onSuccess n returns).rename f = c.onSuccess (n + k) returns := by
  cases returns <;>
    simp [Context.onSuccess, resumeReturn, Expr.field, Expr.string, Expr.null, hf.exitCall,
      hf.outcomeAt, hf.table]

theorem onFailure : (c.onFailure n).rename f = c.onFailure (n + k) := by
  simp [Context.onFailure, Expr.negate, hf.exitCall, hf.outcomeAt]

theorem expandGuarded
    (isAsync : Bool) (item : Item) (inner : List Stmt) :
    Stmt.renameList f (c.expandGuarded isAsync n item inner) =
      c.expandGuarded isAsync (n + k) (item.rename f) (Stmt.renameList f inner) := by
  have henter := hf.enterStatements n item ((c.enterCall n).suspendIf isAsync)
  rw [Expr.rename_suspendIf, hf.enterCall] at henter
  have hbind := hf.bindEntryValue n item.binding
  simp [Context.expandGuarded, henter, hbind, Item.rename_eq, Stmt.letVar, Expr.bool, hf.temp,
    hf.onError, hf.onLeave]

theorem expandProtected
    (item : Item) (inner : List Stmt) :
    Except.Agree (fun code code' => code' = Stmt.renameList f code)
      (c.expandProtected n item inner)
      (c.expandProtected (n + k) (item.rename f) (Stmt.renameList f inner)) := by
  have henter := hf.enterStatements n item (c.enterCall n)
  rw [hf.enterCall] at henter
  have hpacked := Stmt.packReturnsList_rename f 0 (c.bindEntryValue n item.binding ++ inner)
  have hbinding : (item.rename f).binding = item.binding.map (Pattern.rename f) := by
    rw [Item.rename_eq]
  rw [Stmt.renameList_append, hf.bindEntryValue, ← hbinding] at hpacked
  rw [Context.expandProtected, Context.expandProtected]
  rcases hpacked.error_or_ok with ⟨exit, hx, hy⟩ | ⟨⟨guarded, returns⟩, _, hx, hy, rfl⟩
  · rw [hx, hy]
    exact .error _
  · rw [hx, hy]
    refine .ok ?_
    simp [henter, Stmt.letConst, Func.anonymous, hf.temp, hf.pcall, hf.outcomeAt, hf.onSuccess,
      hf.onFailure]

/-- Renamed resources are expanded around renamed code like the resources around the
code. -/
theorem expandItems
    (isAsync : Bool) (items : List Item) (inner : List Stmt) :
    Except.Agree (fun code code' => code' = Stmt.renameList f code)
      (c.expandItems isAsync n items inner)
      (c.expandItems isAsync (n + k) (Item.renameList f items) (Stmt.renameList f inner)) := by
  induction items generalizing n with
  | nil => exact .ok rfl
  | cons item items ih =>
      have hrest := ih (n + 1)
      rw [Nat.add_right_comm] at hrest
      rw [Item.renameList, Context.expandItems, Context.expandItems]
      refine hrest.bind ?_
      rintro held _ rfl
      by_cases hstyle : c.conventions.expansion = .protectedCall
      · rw [if_pos hstyle, if_pos hstyle]
        exact hf.expandProtected n item held
      · rw [if_neg hstyle, if_neg hstyle]
        exact .ok (hf.expandGuarded n isAsync item held).symm

theorem expandScoped
    (s : Scoped) :
    Except.Agree (fun code code' => code' = Stmt.renameList f code)
      (c.expandScoped n s) (c.expandScoped (n + k) (s.rename f)) := by
  obtain ⟨items, body, isAsync⟩ := s
  rw [Context.expandScoped, Context.expandScoped]
  by_cases hstyle : c.conventions.expansion = .native
  · rw [if_pos hstyle, if_pos hstyle]
    exact .ok rfl
  · rw [if_neg hstyle, if_neg hstyle]
    exact hf.expandItems n isAsync items body

end Renumbers

end Context

/-! ## Lowering -/

namespace Token

theorem count_resource_map
    {g : String → Token} (h : ∀ x, g x ≠ .resource) (xs : List String) :
    (xs.map g).count .resource = 0 := by
  rw [List.count_eq_zero, List.mem_map]
  rintro ⟨x, -, hx⟩
  exact h x hx

@[simp] theorem count_resource_block
    (ts : List Token) : (block ts).count .resource = ts.count .resource := by
  simp [block]

@[simp] theorem count_resource_ofLiteralName
    (name : String) : (ofLiteralName name).count .resource = 0 := by
  cases hname : name.isEmpty <;> simp [ofLiteralName, hname]

end Token

/-- The resources of items: the items themselves and those inside of their acquisitions. -/
theorem Item.count_resource_tokensList
    (items : List Item) :
    (Item.tokensList items).count .resource =
      items.length + (Expr.tokensList (items.map Item.acquire)).count .resource := by
  induction items with
  | nil => rfl
  | cons item items ih =>
      have hbound : (item.boundNames.map Token.bound).count .resource = 0 :=
        Token.count_resource_map (by simp) _
      simp [Item.tokensList, Item.tokens_eq, Expr.tokensList, hbound, ih]
      omega

section

open Lowering

variable {c : Context} {k : Nat} {f : String → String}

attribute [local simp] Expr.tokens Expr.tokensList Expr.tokensOption Expr.tokensPairs Func.tokens
  Stmt.tokens Stmt.tokensList Stmt.tokensOption

mutual

/-- An expression is lowered from another number on to the renamed result. -/
theorem Expr.lower_moves
    (hf : c.Renumbers k f) (inAsync : Bool) :
    (e : Expr) → (∀ x ∈ e.names, f x = x) →
      Moves k (e.tokens.count .resource) (Expr.rename f) (e.lower c inAsync) (e.lower c inAsync)
  | .literal l, _ => by
      rw [Expr.lower]
      exact .pure rfl
  | .ident x, h => by
      have hx : f x = x := h x (List.mem_singleton.mpr rfl)
      rw [Expr.lower]
      exact .pure (by rw [Expr.rename, hx])
  | .binary l op r, h => by
      obtain ⟨hl, hr⟩ := List.forall_mem_append.mp h
      rw [Expr.lower, Expr.tokens, List.count_append]
      refine (Expr.lower_moves hf inAsync l hl).bind fun l => ?_
      exact (Expr.lower_moves hf inAsync r hr).last fun r => rfl
  | .unary op e, h => by
      rw [Expr.lower]
      exact (Expr.lower_moves hf inAsync e h).last fun e => rfl
  | .call g args, h => by
      obtain ⟨hg, hargs⟩ := List.forall_mem_append.mp h
      rw [Expr.lower, Expr.tokens, List.count_append]
      refine (Expr.lower_moves hf inAsync g hg).bind fun g => ?_
      exact (Expr.lowerList_moves hf inAsync args hargs).last fun args => rfl
  | .methodCall r m args, h => by
      obtain ⟨hr, hargs⟩ := List.forall_mem_append.mp h
      rw [Expr.lower, Expr.tokens, List.count_append]
      refine (Expr.lower_moves hf inAsync r hr).bind fun r => ?_
      exact (Expr.lowerList_moves hf inAsync args hargs).last fun args => rfl
  | .member o p computed, h => by
      obtain ⟨ho, hp⟩ := List.forall_mem_append.mp h
      rw [Expr.lower, Expr.tokens, List.count_append]
      refine (Expr.lower_moves hf inAsync o ho).bind fun o => ?_
      exact (Expr.lower_moves hf inAsync p hp).last fun p => rfl
  | .array es, h => by
      rw [Expr.lower]
      exact (Expr.lowerList_moves hf inAsync es h).last fun es => rfl
  | .object ps, h => by
      rw [Expr.lower]
      exact (Expr.lowerPairs_moves hf inAsync ps h).last fun ps => rfl
  | .function g, h => by
      have hcount : (Expr.function g).tokens.count .resource = g.tokens.count .resource := by
        simp
      rw [Expr.lower, hcount]
      exact (Func.lower_moves hf g h).last fun g => rfl
  | .conditional t a b, h => by
      obtain ⟨hta, hb⟩ := List.forall_mem_append.mp h
      obtain ⟨ht, ha⟩ := List.forall_mem_append.mp hta
      rw [Expr.lower, Expr.tokens, List.count_append, List.count_append, Nat.add_assoc]
      refine (Expr.lower_moves hf inAsync t ht).bind fun t => ?_
      refine (Expr.lower_moves hf inAsync a ha).bind fun a => ?_
      exact (Expr.lower_moves hf inAsync b hb).last fun b => rfl
  | .assign t v, h => by
      obtain ⟨ht, hv⟩ := List.forall_mem_append.mp h
      rw [Expr.lower, Expr.tokens, List.count_append]
      refine (Expr.lower_moves hf inAsync t ht).bind fun t => ?_
      exact (Expr.lower_moves hf inAsync v hv).last fun v => rfl
  | .await e, h => by
      rw [Expr.lower]
      exact (Expr.lower_moves hf inAsync e h).last fun e => rfl

theorem Expr.lowerList_moves
    (hf : c.Renumbers k f) (inAsync : Bool) :
    (es : List Expr) → (∀ x ∈ Expr.namesList es, f x = x) →
      Moves k ((Expr.tokensList es).count .resource) (Expr.renameList f)
        (Expr.lowerList c inAsync es) (Expr.lowerList c inAsync es)
  | [], _ => by
      rw [Expr.lowerList]
      exact .pure rfl
  | e :: es, h => by
      obtain ⟨he, hes⟩ := List.forall_mem_append.mp h
      rw [Expr.lowerList, Expr.tokensList, List.count_append]
      refine (Expr.lower_moves hf inAsync e he).bind fun e => ?_
      exact (Expr.lowerList_moves hf inAsync es hes).last fun es => rfl

theorem Expr.lowerOption_moves
    (hf : c.Renumbers k f) (inAsync : Bool) :
    (e : Option Expr) → (∀ x ∈ Expr.namesOption e, f x = x) →
      Moves k ((Expr.tokensOption e).count .resource) (Expr.renameOption f)
        (Expr.lowerOption c inAsync e) (Expr.lowerOption c inAsync e)
  | none, _ => by
      rw [Expr.lowerOption]
      exact .pure rfl
  | some e, h => by
      rw [Expr.lowerOption]
      exact (Expr.lower_moves hf inAsync e h).last fun e => rfl

theorem Expr.lowerPairs_moves
    (hf : c.Renumbers k f) (inAsync : Bool) :
    (ps : List (String × Expr)) → (∀ x ∈ Expr.namesPairs ps, f x = x) →
      Moves k ((Expr.tokensPairs ps).count .resource) (Expr.renamePairs f)
        (Expr.lowerPairs c inAsync ps) (Expr.lowerPairs c inAsync ps)
  | [], _ => by
      rw [Expr.lowerPairs]
      exact .pure rfl
  | (key, e) :: ps, h => by
      obtain ⟨he, hps⟩ := List.forall_mem_append.mp h
      rw [Expr.lowerPairs, Expr.tokensPairs, List.count_append]
      refine (Expr.lower_moves hf inAsync e he).bind fun e => ?_
      exact (Expr.lowerPairs_moves hf inAsync ps hps).last fun ps => rfl

theorem Func.lower_moves
    (hf : c.Renumbers k f) :
    (g : Func) → (∀ x ∈ g.names, f x = x) →
      Moves k (g.tokens.count .resource) (Func.rename f) (g.lower c) (g.lower c)
  | ⟨name, params, body, isAsync⟩, h => by
      obtain ⟨hparams, hbody⟩ := List.forall_mem_append.mp h
      have hcount :
          (Func.tokens ⟨name, params, body, isAsync⟩).count .resource =
            (Stmt.tokensList body).count .resource := by
        simp [Token.count_resource_map]
      have hmap : params.map f = params := (List.map_congr_left hparams).trans (List.map_id params)
      rw [Func.lower, hcount]
      refine (Stmt.lowerList_moves hf isAsync body hbody).last fun body => ?_
      rw [Func.rename, hmap]

/-- A statement is lowered from another number on to the renamed result. -/
theorem Stmt.lower_moves
    (hf : c.Renumbers k f) (inAsync : Bool) :
    (s : Stmt) → (∀ x ∈ s.names, f x = x) →
      Moves k (s.tokens.count .resource) (Stmt.renameList f)
        (s.lower c inAsync) (s.lower c inAsync)
  | .expr e, h => by
      rw [Stmt.lower]
      exact (Expr.lower_moves hf inAsync e h).last fun e => rfl
  | .declare x i m, h => by
      obtain ⟨hx, hi⟩ := List.forall_mem_cons.mp h
      have hcount :
          (Stmt.declare x i m).tokens.count .resource =
            (Expr.tokensOption i).count .resource := by
        simp
      rw [Stmt.lower, hcount]
      refine (Expr.lowerOption_moves hf inAsync i hi).last fun i => ?_
      rw [Stmt.renameList, Stmt.renameList, Stmt.rename, hx]
  | .destructure p i, h => by
      obtain ⟨hp, hi⟩ := List.forall_mem_append.mp h
      have hcount :
          (Stmt.destructure p i).tokens.count .resource = i.tokens.count .resource := by
        simp [Token.count_resource_map]
      rw [Stmt.lower, hcount]
      refine (Expr.lower_moves hf inAsync i hi).last fun i => ?_
      rw [Stmt.renameList, Stmt.renameList, Stmt.rename, Pattern.rename_eq_self p hp]
  | .block b, h => by
      rw [Stmt.lower, Stmt.tokens, Token.count_resource_block]
      exact (Stmt.lowerList_moves hf inAsync b h).last fun b => rfl
  | .ifElse t a b, h => by
      obtain ⟨hta, hb⟩ := List.forall_mem_append.mp h
      obtain ⟨ht, ha⟩ := List.forall_mem_append.mp hta
      have hcount :
          (Stmt.ifElse t a b).tokens.count .resource =
            t.tokens.count .resource +
              (a.tokens.count .resource + (Stmt.tokensOption b).count .resource) := by
        simp []
      rw [Stmt.lower, hcount]
      refine (Expr.lower_moves hf inAsync t ht).bind fun t => ?_
      refine (Stmt.lower_moves hf inAsync a ha).bind fun a => ?_
      refine (Stmt.lowerOption_moves hf inAsync b hb).last fun b => ?_
      simp [Stmt.renameList, Stmt.rename]
  | .whileLoop t b, h => by
      obtain ⟨ht, hb⟩ := List.forall_mem_append.mp h
      rw [Stmt.lower, Stmt.tokens, List.count_append, Token.count_resource_block]
      refine (Expr.lower_moves hf inAsync t ht).bind fun t => ?_
      refine (Stmt.lower_moves hf inAsync b hb).last fun b => ?_
      simp [Stmt.renameList, Stmt.rename]
  | .forLoop i t u b, h => by
      obtain ⟨hitu, hb⟩ := List.forall_mem_append.mp h
      obtain ⟨hit, hu⟩ := List.forall_mem_append.mp hitu
      obtain ⟨hi, ht⟩ := List.forall_mem_append.mp hit
      have hcount :
          (Stmt.forLoop i t u b).tokens.count .resource =
            (Stmt.tokensOption i).count .resource +
              ((Expr.tokensOption t).count .resource +
                ((Expr.tokensOption u).count .resource + b.tokens.count .resource)) := by
        simp []
      rw [Stmt.lower, hcount]
      refine (Stmt.lowerOption_moves hf inAsync i hi).bind fun i => ?_
      refine (Expr.lowerOption_moves hf inAsync t ht).bind fun t => ?_
      refine (Expr.lowerOption_moves hf inAsync u hu).bind fun u => ?_
      refine (Stmt.lower_moves hf inAsync b hb).last fun b => ?_
      simp [Stmt.renameList, Stmt.rename]
  | .forEach x i b, h => by
      obtain ⟨hxi, hb⟩ := List.forall_mem_append.mp h
      obtain ⟨hx, hi⟩ := List.forall_mem_cons.mp hxi
      have hcount :
          (Stmt.forEach x i b).tokens.count .resource =
            i.tokens.count .resource + b.tokens.count .resource := by
        simp
      rw [Stmt.lower, hcount]
      refine (Expr.lower_moves hf inAsync i hi).bind fun i => ?_
      refine (Stmt.lower_moves hf inAsync b hb).last fun b => ?_
      simp [Stmt.renameList, Stmt.rename, hx]
  | .ret v, h => by
      rw [Stmt.lower]
      exact (Expr.lowerOption_moves hf inAsync v h).last fun v => rfl
  | .breakLoop, _ => by
      rw [Stmt.lower]
      exact .pure rfl
  | .continueLoop, _ => by
      rw [Stmt.lower]
      exact .pure rfl
  | .throw e, h => by
      rw [Stmt.lower]
      exact (Expr.lower_moves hf inAsync e h).last fun e => rfl
  | .tryCatch b p h g, hall => by
      obtain ⟨hpbh, hg⟩ := List.forall_mem_append.mp hall
      obtain ⟨hpb, hh⟩ := List.forall_mem_append.mp hpbh
      obtain ⟨hp, hb⟩ := List.forall_mem_append.mp hpb
      have hcount :
          (Stmt.tryCatch b p h g).tokens.count .resource =
            b.tokens.count .resource +
              ((Stmt.tokensOption h).count .resource + (Stmt.tokensOption g).count .resource) := by
        simp [Token.count_resource_map]
      have hparam : p.map f = p := by
        cases p with
        | none => rfl
        | some x => rw [Option.map_some, hp x (List.mem_singleton.mpr rfl)]
      rw [Stmt.lower, hcount]
      refine (Stmt.lower_moves hf inAsync b hb).bind fun b => ?_
      refine (Stmt.lowerOption_moves hf inAsync h hh).bind fun h => ?_
      refine (Stmt.lowerOption_moves hf inAsync g hg).last fun g => ?_
      simp [Stmt.renameList, Stmt.rename, hparam]
  | .function ⟨name, params, body, isAsync⟩, h => by
      obtain ⟨hname, hparts⟩ := List.forall_mem_cons.mp h
      obtain ⟨hparams, hbody⟩ := List.forall_mem_append.mp hparts
      have hcount :
          (Stmt.function ⟨name, params, body, isAsync⟩).tokens.count .resource =
            (Stmt.tokensList body).count .resource := by
        simp [Token.count_resource_map]
      have hmap : params.map f = params := (List.map_congr_left hparams).trans (List.map_id params)
      rw [Stmt.lower, Func.lower, bind_assoc, hcount]
      refine (Stmt.lowerList_moves hf isAsync body hbody).last fun body => ?_
      simp [Stmt.renameList, Stmt.rename, hname, hmap]
  | .holding s, h => by
      rw [Stmt.lower]
      exact Scoped.lower_moves hf inAsync s h

theorem Stmt.lowerList_moves
    (hf : c.Renumbers k f) (inAsync : Bool) :
    (ss : List Stmt) → (∀ x ∈ Stmt.namesList ss, f x = x) →
      Moves k ((Stmt.tokensList ss).count .resource) (Stmt.renameList f)
        (Stmt.lowerList c inAsync ss) (Stmt.lowerList c inAsync ss)
  | [], _ => by
      rw [Stmt.lowerList]
      exact .pure rfl
  | s :: ss, h => by
      obtain ⟨hs, hss⟩ := List.forall_mem_append.mp h
      rw [Stmt.lowerList, Stmt.tokensList, List.count_append]
      refine (Stmt.lower_moves hf inAsync s hs).bind fun s => ?_
      refine (Stmt.lowerList_moves hf inAsync ss hss).last fun ss => ?_
      rw [Stmt.renameList_append]

theorem Stmt.lowerOption_moves
    (hf : c.Renumbers k f) (inAsync : Bool) :
    (s : Option Stmt) → (∀ x ∈ Stmt.namesOption s, f x = x) →
      Moves k ((Stmt.tokensOption s).count .resource) (Stmt.renameOption f)
        (Stmt.lowerOption c inAsync s) (Stmt.lowerOption c inAsync s)
  | none, _ => by
      rw [Stmt.lowerOption]
      exact .pure rfl
  | some s, h => by
      rw [Stmt.lowerOption]
      refine (Stmt.lower_moves hf inAsync s h).last fun s => ?_
      rw [Stmt.renameOption, Stmt.rename_ofList]

theorem Item.lower_moves
    (hf : c.Renumbers k f) (inAsync : Bool) :
    (i : Item) → (∀ x ∈ i.names, f x = x) →
      Moves k (i.acquire.tokens.count .resource) (Item.rename f)
        (i.lower c inAsync) (i.lower c inAsync)
  | ⟨acquire, binding, arity⟩, h => by
      obtain ⟨hacquire, hbound⟩ := List.forall_mem_append.mp h
      have hbinding : binding.map (Pattern.rename f) = binding := Item.map_rename_binding hbound
      rw [Item.lower]
      refine .check ?_
      refine (Expr.lower_moves hf inAsync acquire hacquire).last fun acquire => ?_
      rw [Item.rename, hbinding]

/-- The numbers of the items themselves are reserved before. -/
theorem Item.lowerList_moves
    (hf : c.Renumbers k f) (inAsync : Bool) :
    (is : List Item) → (∀ x ∈ Item.namesList is, f x = x) →
      Moves k ((Expr.tokensList (is.map Item.acquire)).count .resource) (Item.renameList f)
        (Item.lowerList c inAsync is) (Item.lowerList c inAsync is)
  | [], _ => by
      rw [Item.lowerList]
      exact .pure rfl
  | i :: is, h => by
      obtain ⟨hi, his⟩ := List.forall_mem_append.mp h
      rw [Item.lowerList, List.map_cons, Expr.tokensList, List.count_append]
      refine (Item.lower_moves hf inAsync i hi).bind fun i => ?_
      exact (Item.lowerList_moves hf inAsync is his).last fun is => rfl

theorem Scoped.lower_moves
    (hf : c.Renumbers k f) (inAsync : Bool) :
    (s : Scoped) → (∀ x ∈ s.names, f x = x) →
      Moves k (s.tokens.count .resource) (Stmt.renameList f)
        (s.lower c inAsync) (s.lower c inAsync)
  | ⟨items, body, isAsync⟩, h => by
      obtain ⟨hitems, hbody⟩ := List.forall_mem_append.mp h
      have hcount :
          (Scoped.tokens ⟨items, body, isAsync⟩).count .resource =
            items.length + ((Expr.tokensList (items.map Item.acquire)).count .resource +
              ((Stmt.tokensList body).count .resource + 0)) := by
        simp [Scoped.tokens, Item.count_resource_tokensList, Nat.add_assoc]
      rw [Scoped.lower, hcount]
      by_cases hnone : items.isEmpty
      · rw [if_pos hnone]
        exact fun n => .error _
      · rw [if_neg hnone]
        refine .check (.reserve _ fun n => ?_)
        refine (Item.lowerList_moves hf inAsync items hitems).bind fun items => ?_
        refine (Stmt.lowerList_moves hf inAsync body hbody).bind fun body => ?_
        exact .lift (hf.expandScoped n ⟨items, body, isAsync⟩)

end

end

/-- The lowering of statements that stand behind others, step by step. -/
theorem Stmt.lowerList_append_run
    (c : Context) (inAsync : Bool) (a b : List Stmt) (n : Nat) :
    (Stmt.lowerList c inAsync (a ++ b)).run n = (do
      let p ← (Stmt.lowerList c inAsync a).run n
      let q ← (Stmt.lowerList c inAsync b).run p.2
      .ok (p.1 ++ q.1, q.2)) := by
  induction a generalizing n with
  | nil =>
      rw [List.nil_append, Stmt.lowerList]
      exact (bind_pure _).symm
  | cons s a ih =>
      rw [List.cons_append, Stmt.lowerList, Stmt.lowerList]
      simp only [StateT.run_bind, ih, bind_assoc, StateT.run_pure, pure_bind]
      simp only [List.append_assoc]
      rfl

/-- A lowering of statements that succeeds takes one number for each resource. -/
theorem Stmt.count_of_lowerList
    {c : Context} {inAsync : Bool} {ss code : List Stmt} {n j : Nat}
    (h : (Stmt.lowerList c inAsync ss).run n = .ok (code, j)) :
    j = n + (Stmt.tokensList ss).count .resource := by
  have hmoves := Stmt.lowerList_moves c.renumbers_id inAsync ss (fun _ _ => rfl) n
  rcases hmoves.error_or_ok with ⟨e, he, -⟩ | ⟨r, _, hr, -, hcount, -⟩
  · exact nomatch he.symm.trans h
  · cases hr.symm.trans h
    exact hcount

/-- Statements with no reserved names are lowered behind others as on their own, with the
numbers of generated names counted on from the resources before them: the first error of
either part is the error of the whole, and otherwise the results stand one behind the
other. -/
theorem Program.lower_append_renumbers
    (s : Settings) (c : Conventions) (p₁ p₂ : Program)
    (hnames : ∀ x ∈ Stmt.namesList p₂.body, (s.context c).isReserved x = false) :
    Program.lowerWith s c ⟨p₁.body ++ p₂.body⟩ = (do
      let q₁ ← p₁.lowerWith s c
      let q₂ ← p₂.lowerWith s c
      let shift := (s.context c).renumber (p₁.tokens.count .resource)
      .ok ⟨q₁.body ++ (q₂.rename shift).body⟩) := by
  rw [lowerWith, lowerWith, lowerWith, Program.lower, Program.lower, Program.lower,
    Stmt.lowerList_append_run]
  generalize s.context c = context at hnames ⊢
  generalize hcount : p₁.tokens.count .resource = count
  have hstay : ∀ x ∈ Stmt.namesList p₂.body, context.renumber count x = x :=
    fun x hx => Context.renumber_of_not_isReserved count (hnames x hx)
  have hmoves := Stmt.lowerList_moves (context.renumbers_renumber count) s.allowTopLevelAwait
    p₂.body hstay 0
  cases hfirst : (Stmt.lowerList context s.allowTopLevelAwait p₁.body).run 0 with
  | error e => rfl
  | ok r =>
      obtain ⟨code, j⟩ := r
      have hj : j = 0 + count := hcount ▸ Stmt.count_of_lowerList hfirst
      subst hj
      rcases hmoves.error_or_ok with ⟨e, halone, hbehind⟩ | ⟨r, _, halone, hbehind, -, rfl⟩
      · simp only [bind, Except.bind, halone, hbehind]
      · simp only [bind, Except.bind, halone, hbehind]
        rfl

/-- Two resources, the second one in the acquisition of the first. -/
def Program.sampleBefore : Program :=
  let inner : Scoped := ⟨[.new (.ident "lock")], [], false⟩
  ⟨[.holding ⟨[.new (.call (.function (.anonymous [] [.holding inner])) [])], [], false⟩]⟩

/-- A resource whose entry value is bound and returned. -/
def Program.sampleBehind : Program :=
  ⟨[.holding ⟨[.bind (.new (.ident "pool")) (.name "x")], [.ret (some (.ident "x"))], false⟩]⟩

theorem Program.lower_append_renumbers_of_two :
    ∃ q₁ q₂, sampleBefore.lowerWith {} .lua = .ok q₁ ∧ sampleBehind.lowerWith {} .lua = .ok q₂ ∧
      "__mgr0" ∈ Stmt.namesList q₂.body ∧ "__mgr1" ∉ Stmt.namesList q₂.body ∧
      ∃ q, q₂.rename ((Settings.context {} .lua).renumber 2) = q ∧
        "__mgr0" ∉ Stmt.namesList q.body ∧ "__mgr2" ∈ Stmt.namesList q.body ∧
        Program.lowerWith {} .lua ⟨sampleBefore.body ++ sampleBehind.body⟩ =
          .ok ⟨q₁.body ++ q.body⟩ := by
  have hnames :
      ∀ x ∈ Stmt.namesList sampleBehind.body, (Settings.context {} .lua).isReserved x = false := by
    decide
  have happend := lower_append_renumbers {} .lua sampleBefore sampleBehind hnames
  refine ⟨_, _, rfl, rfl, by decide, by decide, _, rfl, by decide, by decide, ?_⟩
  exact happend

end Bracket
