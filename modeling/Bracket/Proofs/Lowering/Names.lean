import Bracket.Proofs.Lowering.Run
import Bracket.Proofs.Tree.Names

/-!
# The names in lowered code

Lowered code mentions the names of its source, names that are generated for its
own resources, and the functions that protected calls need.  Generated names of
different roles or numbers differ, and all of them are reserved.
-/

namespace Bracket

namespace Context

variable (c : Context)

/-! ## Generated names -/

theorem temp_injective
    {role role' : Role} {n n' : Nat} (h : c.temp role n = c.temp role' n') :
    role = role' ∧ n = n' := by
  have hlist := congrArg String.toList h
  simp only [temp, String.toList_append, List.append_assoc,
    List.append_cancel_left_eq] at hlist
  have hrole : role = role' := by
    cases role <;> cases role' <;> simp [Role.text] at hlist ⊢
  subst hrole
  have hrepr := congrArg (fun ds => Nat.ofDigitChars 10 ds 0) (List.append_cancel_left hlist)
  exact ⟨rfl, by simpa using hrepr⟩

theorem temp_ne_of_role_ne
    {role role' : Role} (n n' : Nat) (h : role ≠ role') : c.temp role n ≠ c.temp role' n' :=
  fun heq => h (c.temp_injective heq).1

theorem temp_ne_of_lt
    {n n' : Nat} (role role' : Role) (h : n < n') : c.temp role n ≠ c.temp role' n' :=
  fun heq => absurd (c.temp_injective heq).2 (Nat.ne_of_lt h)

theorem isReserved_temp
    (role : Role) (n : Nat) : c.isReserved (c.temp role n) = true := by
  rw [isReserved, List.isPrefixOf_iff_prefix, temp]
  simp only [String.toList_append, List.append_assoc]
  exact List.prefix_append _ _

/-- A generated name ends in a digit. -/
theorem temp_ne_of_last
    {x : String} {d : Char} (role : Role) (n : Nat)
    (hx : x.toList.getLast? = some d) (hd : d.isDigit = false) : c.temp role n ≠ x := by
  intro heq
  have hlast : (c.temp role n).toList.getLast? = (Nat.toDigits 10 n).getLast? := by
    simp only [temp, String.toList_append, Nat.toList_repr]
    rw [List.getLast?_append, List.getLast?_eq_some_getLast Nat.toDigits_ne_nil]
    rfl
  rw [heq, hx] at hlast
  have hmem : d ∈ Nat.toDigits 10 n := List.mem_of_getLast? hlast.symm
  rw [Nat.isDigit_of_mem_toDigits (by decide) (by decide) hmem] at hd
  exact Bool.noConfusion hd

theorem temp_ne_pcall (role : Role) (n : Nat) : c.temp role n ≠ "pcall" :=
  c.temp_ne_of_last role n (by decide) (by decide : Char.isDigit 'l' = false)

theorem temp_ne_table (role : Role) (n : Nat) : c.temp role n ≠ "table" :=
  c.temp_ne_of_last role n (by decide) (by decide : Char.isDigit 'e' = false)

/-! ## Names that lowering puts in -/

/-- A name that lowering may put into code: one that is generated for a resource
from number `k` on, or a function that protected calls need. -/
def Introduces (k : Nat) (x : String) : Prop :=
  (∃ role j, k ≤ j ∧ x = c.temp role j) ∨
    c.conventions.expansion = .protectedCall ∧ (x = "pcall" ∨ x = "table")

theorem Introduces.mono
    {c : Context} {j k : Nat} {x : String} (h : c.Introduces k x) (hle : j ≤ k) :
    c.Introduces j x := by
  rcases h with ⟨role, i, hi, rfl⟩ | h
  · exact .inl ⟨role, i, Nat.le_trans hle hi, rfl⟩
  · exact .inr h

end Context

/-- The names of what a computation yields are names of a source or such that
lowering puts in, counting from where the computation starts. -/
def Lowering.Covered
    {α : Type} (c : Context) (source : List String) (names : α → List String)
    (m : Lowering α) : Prop :=
  ∀ k a j, m.run k = .ok (a, j) → k ≤ j ∧ ∀ x ∈ names a, x ∈ source ∨ c.Introduces k x

namespace Lowering.Covered

variable {α β : Type} {c : Context} {source : List String}
  {names : α → List String} {names' : β → List String}

theorem pure
    {a : α} (h : ∀ x ∈ names a, x ∈ source) : Covered c source names (Pure.pure a) := by
  intro k a' j hrun
  cases pure_eq_ok.mp hrun
  exact ⟨Nat.le_refl k, fun x hx => .inl (h x hx)⟩

/-- The rest of a computation may use the names of what was found before. -/
theorem bind
    {first : List String} {m : Lowering α} {f : α → Lowering β}
    (hm : Covered c first names m) (hsub : ∀ x ∈ first, x ∈ source)
    (hf : ∀ a, Covered c (names a ++ source) names' (f a)) :
    Covered c source names' (m >>= f) := by
  intro k b j hrun
  obtain ⟨a, i, hrun, hrun'⟩ := bind_eq_ok.mp hrun
  obtain ⟨hki, ha⟩ := hm k a i hrun
  obtain ⟨hij, hb⟩ := hf a i b j hrun'
  refine ⟨Nat.le_trans hki hij, fun x hx => ?_⟩
  rcases hb x hx with hmem | hnew
  · rcases List.mem_append.mp hmem with hmem | hmem
    · exact (ha x hmem).imp_left (hsub x)
    · exact .inl hmem
  · exact .inr (hnew.mono hki)

theorem lift
    (x : Except LoweringError Unit) : Covered c [] (fun _ => []) (liftM x) := by
  intro k a j hrun
  obtain ⟨_, -, hr⟩ := lift_eq_ok.mp hrun
  cases hr
  exact ⟨Nat.le_refl k, fun x hx => nomatch hx⟩

end Lowering.Covered

/-! ## Names of expansions -/

mutual

theorem Pattern.mem_names_indexedBindings
    {base : UInt64} {x : String} :
    (p : Pattern) → (source : Expr) →
      x ∈ Stmt.namesList (p.indexedBindings base source) → x ∈ p.names ∨ x ∈ source.names
  | .name n, source, h => by
      simpa [Pattern.indexedBindings, Stmt.letVar, Stmt.namesList, Stmt.names,
        Expr.namesOption, Pattern.names] using h
  | .tuple slots, source, h => by
      rw [Pattern.indexedBindings] at h
      rw [Pattern.names]
      exact Pattern.mem_names_indexedSlots slots source 0 h

theorem Pattern.mem_names_indexedSlots
    {base : UInt64} {x : String} :
    (ps : List Pattern) → (source : Expr) → (i : Nat) →
      x ∈ Stmt.namesList (Pattern.indexedSlots base source i ps) →
        x ∈ Pattern.namesList ps ∨ x ∈ source.names
  | [], source, i, h => by simp [Pattern.indexedSlots, Stmt.namesList] at h
  | p :: ps, source, i, h => by
      rw [Pattern.indexedSlots, Stmt.namesList_append, List.mem_append] at h
      rw [Pattern.namesList, List.mem_append]
      rcases h with h | h
      · rcases Pattern.mem_names_indexedBindings p _ h with h | h
        · exact .inl (.inl h)
        · right
          simpa [Expr.index, Expr.names, Expr.number] using h
      · rcases Pattern.mem_names_indexedSlots ps source (i + 1) h with h | h
        · exact .inl (.inr h)
        · exact .inr h

end

mutual

/-- Packing returns changes no names. -/
theorem Stmt.names_packReturns
    {depth : Nat} {s' : Stmt} {found : Bool} :
    (s : Stmt) → Stmt.packReturns depth s = .ok (s', found) → s'.names = s.names
  | .ret none, h => by
      cases h
      rfl
  | .ret (some e), h => by
      cases h
      simp [Stmt.names, Expr.namesOption, Expr.names, Expr.namesList]
  | .breakLoop, h => by
      rw [Stmt.packReturns] at h
      split at h <;> cases h
      rfl
  | .continueLoop, h => by
      rw [Stmt.packReturns] at h
      split at h <;> cases h
      rfl
  | .block body, h => by
      obtain ⟨⟨body', _⟩, hbody, h⟩ := Except.bind_eq_ok.mp h
      cases h
      rw [Stmt.names, Stmt.names, Stmt.names_packReturnsList body hbody]
  | .ifElse test a b, h => by
      obtain ⟨⟨a', _⟩, ha, h⟩ := Except.bind_eq_ok.mp h
      obtain ⟨⟨b', _⟩, hb, h⟩ := Except.bind_eq_ok.mp h
      cases h
      rw [Stmt.names, Stmt.names, Stmt.names_packReturns a ha, Stmt.names_packReturnsOption b hb]
  | .whileLoop test body, h => by
      obtain ⟨⟨body', _⟩, hbody, h⟩ := Except.bind_eq_ok.mp h
      cases h
      rw [Stmt.names, Stmt.names, Stmt.names_packReturns body hbody]
  | .forLoop init test update body, h => by
      obtain ⟨⟨body', _⟩, hbody, h⟩ := Except.bind_eq_ok.mp h
      cases h
      rw [Stmt.names, Stmt.names, Stmt.names_packReturns body hbody]
  | .forEach x iterable body, h => by
      obtain ⟨⟨body', _⟩, hbody, h⟩ := Except.bind_eq_ok.mp h
      cases h
      rw [Stmt.names, Stmt.names, Stmt.names_packReturns body hbody]
  | .tryCatch body x handler final, h => by
      obtain ⟨⟨body', _⟩, hbody, h⟩ := Except.bind_eq_ok.mp h
      obtain ⟨⟨handler', _⟩, hhandler, h⟩ := Except.bind_eq_ok.mp h
      obtain ⟨⟨final', _⟩, hfinal, h⟩ := Except.bind_eq_ok.mp h
      cases h
      rw [Stmt.names, Stmt.names, Stmt.names_packReturns body hbody,
        Stmt.names_packReturnsOption handler hhandler, Stmt.names_packReturnsOption final hfinal]
  | .holding ⟨items, body, isAsync⟩, h => by
      obtain ⟨⟨body', _⟩, hbody, h⟩ := Except.bind_eq_ok.mp h
      cases h
      rw [Stmt.names, Stmt.names, Scoped.names, Scoped.names,
        Stmt.names_packReturnsList body hbody]
  | .expr _, h | .declare .., h | .destructure .., h | .throw _, h | .function _, h => by
      cases h
      rfl

theorem Stmt.names_packReturnsList
    {depth : Nat} {ss' : List Stmt} {found : Bool} :
    (ss : List Stmt) → Stmt.packReturnsList depth ss = .ok (ss', found) →
      Stmt.namesList ss' = Stmt.namesList ss
  | [], h => by
      cases h
      rfl
  | s :: ss, h => by
      obtain ⟨⟨s', _⟩, hs, h⟩ := Except.bind_eq_ok.mp h
      obtain ⟨⟨ss', _⟩, hss, h⟩ := Except.bind_eq_ok.mp h
      cases h
      rw [Stmt.namesList, Stmt.namesList, Stmt.names_packReturns s hs,
        Stmt.names_packReturnsList ss hss]

theorem Stmt.names_packReturnsOption
    {depth : Nat} {s' : Option Stmt} {found : Bool} :
    (s : Option Stmt) → Stmt.packReturnsOption depth s = .ok (s', found) →
      Stmt.namesOption s' = Stmt.namesOption s
  | none, h => by
      cases h
      rfl
  | some s, h => by
      obtain ⟨⟨s', _⟩, hs, h⟩ := Except.bind_eq_ok.mp h
      cases h
      rw [Stmt.namesOption, Stmt.namesOption, Stmt.names_packReturns s hs]

end

theorem Item.mem_names_iff
    {x : String} {item : Item} :
    x ∈ item.names ↔ x ∈ item.acquire.names ∨ x ∈ item.boundNames := by
  cases item
  rw [Item.names, List.mem_append]

@[simp] theorem Expr.names_suspendIf
    (isAsync : Bool) (e : Expr) : (e.suspendIf isAsync).names = e.names := by
  cases isAsync <;> simp [Expr.suspendIf, Expr.names]

namespace Context

variable {c : Context} {n : Nat} {x : String} {item : Item} {inner : List Stmt}

@[simp] theorem names_enterCall : (c.enterCall n).names = [c.temp .manager n] := by
  simp [enterCall, Expr.names, Expr.namesList]

@[simp] theorem names_exitCall
    (argument : Expr) : (c.exitCall n argument).names = c.temp .manager n :: argument.names := by
  simp [exitCall, Expr.names, Expr.namesList]

@[simp] theorem names_outcomeAt
    (i : Nat) : (c.outcomeAt n i).names = [c.temp .outcome n] := by
  simp [outcomeAt, Expr.index, Expr.number, Expr.names]

theorem mem_names_bindEntryValue
    (h : x ∈ Stmt.namesList (c.bindEntryValue n item.binding)) :
    x ∈ item.boundNames ∨ x = c.temp .value n := by
  unfold bindEntryValue at h
  unfold Item.boundNames
  split at h
  · simp [Stmt.namesList] at h
  · rename_i hbinding
    rw [hbinding]
    simpa [Stmt.letVar, Stmt.namesList, Stmt.names, Expr.namesOption, Expr.names,
      Pattern.names] using h
  · rename_i p _ hbinding
    rw [hbinding]
    dsimp only at h ⊢
    split at h
    · simpa [Stmt.namesList, Stmt.names, Expr.names] using h
    · simpa [Expr.names] using Pattern.mem_names_indexedBindings p _ h

theorem mem_names_enterStatements
    {enter : Expr} (henter : enter.names = [c.temp .manager n])
    (h : x ∈ Stmt.namesList (c.enterStatements n item enter)) :
    x ∈ item.acquire.names ∨ ∃ role, x = c.temp role n := by
  have hnames : x = c.temp .manager n ∨ x ∈ item.acquire.names ∨ x = c.temp .value n := by
    unfold enterStatements at h
    split at h <;>
      simp [Stmt.letConst, Stmt.namesList, Stmt.names, Expr.namesOption, henter] at h <;>
      grind
  rcases hnames with h | h | h
  · exact .inr ⟨_, h⟩
  · exact .inl h
  · exact .inr ⟨_, h⟩

theorem mem_names_expandGuarded
    {isAsync : Bool} (h : x ∈ Stmt.namesList (c.expandGuarded isAsync n item inner)) :
    x ∈ item.names ∨ x ∈ Stmt.namesList inner ∨ ∃ role, x = c.temp role n := by
  rw [Item.mem_names_iff]
  rw [expandGuarded, Stmt.namesList_append, List.mem_append] at h
  rcases h with h | h
  · rcases mem_names_enterStatements (by simp) h with h | h
    · exact .inl (.inl h)
    · exact .inr (.inr h)
  · have hnames :
        x ∈ Stmt.namesList (c.bindEntryValue n item.binding) ∨ x ∈ Stmt.namesList inner ∨
          x = c.temp .failed n ∨ x = c.temp .error n ∨ x = c.temp .manager n := by
      simp [Stmt.namesList, Stmt.names, Stmt.letVar, Expr.namesOption, onError, onLeave,
        Stmt.namesOption, Expr.names, Expr.negate, Expr.bool, Expr.null] at h
      grind
    rcases hnames with h | h | h | h | h
    · rcases mem_names_bindEntryValue h with h | h
      · exact .inl (.inr h)
      · exact .inr (.inr ⟨_, h⟩)
    · exact .inr (.inl h)
    all_goals exact .inr (.inr ⟨_, h⟩)

theorem mem_names_expandProtected
    {code : List Stmt} (hcode : c.expandProtected n item inner = .ok code)
    (h : x ∈ Stmt.namesList code) :
    x ∈ item.names ∨ x ∈ Stmt.namesList inner ∨ (∃ role, x = c.temp role n) ∨
      x = "pcall" ∨ x = "table" := by
  rw [Item.mem_names_iff]
  unfold expandProtected at hcode
  split at hcode
  · cases hcode
  · rename_i guarded returns hpack
    cases hcode
    have hguarded := Stmt.names_packReturnsList _ hpack
    rw [Stmt.namesList_append] at hguarded
    rw [Stmt.namesList_append, List.mem_append] at h
    rcases h with h | h
    · rcases mem_names_enterStatements (by simp) h with h | h
      · exact .inl (.inl h)
      · exact .inr (.inr (.inl h))
    · have hnames :
          x ∈ Stmt.namesList (c.bindEntryValue n item.binding) ∨ x ∈ Stmt.namesList inner ∨
            x = c.temp .outcome n ∨ x = c.temp .manager n ∨ x = "pcall" ∨ x = "table" := by
        cases returns <;>
          simp [Stmt.namesList, Stmt.names, Stmt.letConst, Expr.namesOption, onSuccess,
            onFailure, resumeReturn, Stmt.namesOption, Expr.names, Expr.namesList,
            Func.anonymous, Func.names, Expr.negate, Expr.field, Expr.string, Expr.null,
            hguarded] at h <;>
          grind
      rcases hnames with h | h | h | h | h
      · rcases mem_names_bindEntryValue h with h | h
        · exact .inl (.inr h)
        · exact .inr (.inr (.inl ⟨_, h⟩))
      · exact .inr (.inl h)
      · exact .inr (.inr (.inl ⟨_, h⟩))
      · exact .inr (.inr (.inl ⟨_, h⟩))
      · exact .inr (.inr (.inr h))

/-- Expansions mention the names of their parts and such that lowering puts in. -/
theorem mem_names_expandItems
    {isAsync : Bool} {items : List Item} {code : List Stmt}
    (hcode : c.expandItems isAsync n items inner = .ok code) (h : x ∈ Stmt.namesList code) :
    x ∈ Item.namesList items ∨ x ∈ Stmt.namesList inner ∨ c.Introduces n x := by
  induction items generalizing n code with
  | nil =>
      cases hcode
      exact .inr (.inl h)
  | cons item items ih =>
      obtain ⟨code', hcode', hcode⟩ := Except.bind_eq_ok.mp hcode
      have hinner (h : x ∈ Stmt.namesList code') :
          x ∈ Item.namesList (item :: items) ∨ x ∈ Stmt.namesList inner ∨ c.Introduces n x := by
        rcases ih hcode' h with h | h | h
        · exact .inl (List.mem_append_right _ h)
        · exact .inr (.inl h)
        · exact .inr (.inr (h.mono (Nat.le_succ n)))
      split at hcode
      · rename_i hstyle
        rcases mem_names_expandProtected hcode h with h | h | ⟨role, h⟩ | h
        · exact .inl (List.mem_append_left _ h)
        · exact hinner h
        · exact .inr (.inr (.inl ⟨role, n, Nat.le_refl n, h⟩))
        · exact .inr (.inr (.inr ⟨hstyle, h⟩))
      · cases hcode
        rcases mem_names_expandGuarded h with h | h | ⟨role, h⟩
        · exact .inl (List.mem_append_left _ h)
        · exact hinner h
        · exact .inr (.inr (.inl ⟨role, n, Nat.le_refl n, h⟩))

theorem mem_names_expandScoped
    {s : Scoped} {code : List Stmt}
    (hcode : c.expandScoped n s = .ok code) (h : x ∈ Stmt.namesList code) :
    x ∈ Item.namesList s.items ∨ x ∈ Stmt.namesList s.body ∨ c.Introduces n x := by
  obtain ⟨items, body, isAsync⟩ := s
  unfold expandScoped at hcode
  split at hcode
  · cases hcode
    simp only [Stmt.namesList, Stmt.names, Scoped.names, List.append_nil, List.mem_append] at h
    rcases h with h | h
    · exact .inl h
    · exact .inr (.inl h)
  · exact mem_names_expandItems hcode h

end Context

/-! ## Names of lowered code -/

mutual

theorem Expr.lower_covered
    (c : Context) (inAsync : Bool) :
    (e : Expr) → Lowering.Covered c e.names Expr.names (e.lower c inAsync)
  | .literal l => by
      rw [Expr.lower]
      exact .pure fun _ hx => hx
  | .ident x => by
      rw [Expr.lower]
      exact .pure fun _ hx => hx
  | .binary l op r => by
      rw [Expr.lower]
      refine .bind (Expr.lower_covered c inAsync l) (by grind) fun l' => ?_
      refine .bind (Expr.lower_covered c inAsync r) (by grind) fun r' => ?_
      exact .pure (by grind)
  | .unary op e => by
      rw [Expr.lower]
      refine .bind (Expr.lower_covered c inAsync e) (by grind) fun e' => ?_
      exact .pure (by grind)
  | .call f args => by
      rw [Expr.lower]
      refine .bind (Expr.lower_covered c inAsync f) (by grind) fun f' => ?_
      refine .bind (Expr.lowerList_covered c inAsync args) (by grind) fun args' => ?_
      exact .pure (by grind)
  | .methodCall r m args => by
      rw [Expr.lower]
      refine .bind (Expr.lower_covered c inAsync r) (by grind) fun r' => ?_
      refine .bind (Expr.lowerList_covered c inAsync args) (by grind) fun args' => ?_
      exact .pure (by grind)
  | .member o p computed => by
      rw [Expr.lower]
      refine .bind (Expr.lower_covered c inAsync o) (by grind) fun o' => ?_
      refine .bind (Expr.lower_covered c inAsync p) (by grind) fun p' => ?_
      exact .pure (by grind)
  | .array es => by
      rw [Expr.lower]
      refine .bind (Expr.lowerList_covered c inAsync es) (by grind) fun es' => ?_
      exact .pure (by grind)
  | .object ps => by
      rw [Expr.lower]
      refine .bind (Expr.lowerPairs_covered c inAsync ps) (by grind) fun ps' => ?_
      exact .pure (by grind)
  | .function f => by
      rw [Expr.lower]
      refine .bind (Func.lower_covered c f) (by grind) fun f' => ?_
      exact .pure (by grind)
  | .conditional t a b => by
      rw [Expr.lower]
      refine .bind (Expr.lower_covered c inAsync t) (by grind) fun t' => ?_
      refine .bind (Expr.lower_covered c inAsync a) (by grind) fun a' => ?_
      refine .bind (Expr.lower_covered c inAsync b) (by grind) fun b' => ?_
      exact .pure (by grind)
  | .assign t v => by
      rw [Expr.lower]
      refine .bind (Expr.lower_covered c inAsync t) (by grind) fun t' => ?_
      refine .bind (Expr.lower_covered c inAsync v) (by grind) fun v' => ?_
      exact .pure (by grind)
  | .await e => by
      rw [Expr.lower]
      refine .bind (Expr.lower_covered c inAsync e) (by grind) fun e' => ?_
      exact .pure (by grind)

theorem Expr.lowerList_covered
    (c : Context) (inAsync : Bool) :
    (es : List Expr) →
      Lowering.Covered c (Expr.namesList es) Expr.namesList (Expr.lowerList c inAsync es)
  | [] => by
      rw [Expr.lowerList]
      exact .pure fun _ hx => hx
  | e :: es => by
      rw [Expr.lowerList]
      refine .bind (Expr.lower_covered c inAsync e) (by grind) fun e' => ?_
      refine .bind (Expr.lowerList_covered c inAsync es) (by grind) fun es' => ?_
      exact .pure (by grind)

theorem Expr.lowerOption_covered
    (c : Context) (inAsync : Bool) :
    (e : Option Expr) →
      Lowering.Covered c (Expr.namesOption e) Expr.namesOption (Expr.lowerOption c inAsync e)
  | none => by
      rw [Expr.lowerOption]
      exact .pure fun _ hx => hx
  | some e => by
      rw [Expr.lowerOption]
      refine .bind (Expr.lower_covered c inAsync e) (by grind) fun e' => ?_
      exact .pure (by grind)

theorem Expr.lowerPairs_covered
    (c : Context) (inAsync : Bool) :
    (ps : List (String × Expr)) →
      Lowering.Covered c (Expr.namesPairs ps) Expr.namesPairs (Expr.lowerPairs c inAsync ps)
  | [] => by
      rw [Expr.lowerPairs]
      exact .pure fun _ hx => hx
  | (k, e) :: ps => by
      rw [Expr.lowerPairs]
      refine .bind (Expr.lower_covered c inAsync e) (by grind) fun e' => ?_
      refine .bind (Expr.lowerPairs_covered c inAsync ps) (by grind) fun ps' => ?_
      exact .pure (by grind)

theorem Func.lower_covered
    (c : Context) : (f : Func) → Lowering.Covered c f.names Func.names (f.lower c)
  | ⟨name, params, body, isAsync⟩ => by
      rw [Func.lower]
      refine .bind (Stmt.lowerList_covered c isAsync body) (by grind) fun body' => ?_
      exact .pure (by grind)

theorem Stmt.lower_covered
    (c : Context) (inAsync : Bool) :
    (s : Stmt) → Lowering.Covered c s.names Stmt.namesList (s.lower c inAsync)
  | .expr e => by
      rw [Stmt.lower]
      refine .bind (Expr.lower_covered c inAsync e) (by grind) fun e' => ?_
      exact .pure (by grind)
  | .declare x i m => by
      rw [Stmt.lower]
      refine .bind (Expr.lowerOption_covered c inAsync i) (by grind) fun i' => ?_
      exact .pure (by grind)
  | .destructure p i => by
      rw [Stmt.lower]
      refine .bind (Expr.lower_covered c inAsync i) (by grind) fun i' => ?_
      exact .pure (by grind)
  | .block b => by
      rw [Stmt.lower]
      refine .bind (Stmt.lowerList_covered c inAsync b) (by grind) fun b' => ?_
      exact .pure (by grind)
  | .ifElse t a b => by
      rw [Stmt.lower]
      refine .bind (Expr.lower_covered c inAsync t) (by grind) fun t' => ?_
      refine .bind (Stmt.lower_covered c inAsync a) (by grind) fun a' => ?_
      refine .bind (Stmt.lowerOption_covered c inAsync b) (by grind) fun b' => ?_
      exact .pure (by grind)
  | .whileLoop t b => by
      rw [Stmt.lower]
      refine .bind (Expr.lower_covered c inAsync t) (by grind) fun t' => ?_
      refine .bind (Stmt.lower_covered c inAsync b) (by grind) fun b' => ?_
      exact .pure (by grind)
  | .forLoop i t u b => by
      rw [Stmt.lower]
      refine .bind (Stmt.lowerOption_covered c inAsync i) (by grind) fun i' => ?_
      refine .bind (Expr.lowerOption_covered c inAsync t) (by grind) fun t' => ?_
      refine .bind (Expr.lowerOption_covered c inAsync u) (by grind) fun u' => ?_
      refine .bind (Stmt.lower_covered c inAsync b) (by grind) fun b' => ?_
      exact .pure (by grind)
  | .forEach x i b => by
      rw [Stmt.lower]
      refine .bind (Expr.lower_covered c inAsync i) (by grind) fun i' => ?_
      refine .bind (Stmt.lower_covered c inAsync b) (by grind) fun b' => ?_
      exact .pure (by grind)
  | .ret v => by
      rw [Stmt.lower]
      refine .bind (Expr.lowerOption_covered c inAsync v) (by grind) fun v' => ?_
      exact .pure (by grind)
  | .breakLoop => by
      rw [Stmt.lower]
      exact .pure (by grind)
  | .continueLoop => by
      rw [Stmt.lower]
      exact .pure (by grind)
  | .throw e => by
      rw [Stmt.lower]
      refine .bind (Expr.lower_covered c inAsync e) (by grind) fun e' => ?_
      exact .pure (by grind)
  | .tryCatch b p h f => by
      rw [Stmt.lower]
      refine .bind (Stmt.lower_covered c inAsync b) (by grind) fun b' => ?_
      refine .bind (Stmt.lowerOption_covered c inAsync h) (by grind) fun h' => ?_
      refine .bind (Stmt.lowerOption_covered c inAsync f) (by grind) fun f' => ?_
      exact .pure (by grind)
  | .function ⟨name, params, body, isAsync⟩ => by
      rw [Stmt.lower, Func.lower, bind_assoc]
      refine .bind (Stmt.lowerList_covered c isAsync body) (by grind) fun body' => ?_
      rw [pure_bind]
      exact .pure (by grind)
  | .holding s => by
      rw [Stmt.lower, Stmt.names]
      exact Scoped.lower_covered c inAsync s

theorem Stmt.lowerList_covered
    (c : Context) (inAsync : Bool) :
    (ss : List Stmt) →
      Lowering.Covered c (Stmt.namesList ss) Stmt.namesList (Stmt.lowerList c inAsync ss)
  | [] => by
      rw [Stmt.lowerList]
      exact .pure fun _ hx => hx
  | s :: ss => by
      rw [Stmt.lowerList]
      refine .bind (Stmt.lower_covered c inAsync s) (by grind) fun s' => ?_
      refine .bind (Stmt.lowerList_covered c inAsync ss) (by grind) fun ss' => ?_
      exact .pure (by grind)

theorem Stmt.lowerOption_covered
    (c : Context) (inAsync : Bool) :
    (s : Option Stmt) →
      Lowering.Covered c (Stmt.namesOption s) Stmt.namesOption (Stmt.lowerOption c inAsync s)
  | none => by
      rw [Stmt.lowerOption]
      exact .pure fun _ hx => hx
  | some s => by
      rw [Stmt.lowerOption]
      refine .bind (Stmt.lower_covered c inAsync s) (by grind) fun s' => ?_
      exact .pure (by grind)

theorem Item.lower_covered
    (c : Context) (inAsync : Bool) :
    (i : Item) → Lowering.Covered c i.names Item.names (i.lower c inAsync)
  | ⟨acquire, binding, arity⟩ => by
      rw [Item.lower]
      refine .bind (.lift _) (fun _ hx => nomatch hx) fun _ => ?_
      refine .bind (Expr.lower_covered c inAsync acquire) (by grind) fun e' => ?_
      exact .pure (by grind [Item.boundNames])

theorem Item.lowerList_covered
    (c : Context) (inAsync : Bool) :
    (is : List Item) →
      Lowering.Covered c (Item.namesList is) Item.namesList (Item.lowerList c inAsync is)
  | [] => by
      rw [Item.lowerList]
      exact .pure fun _ hx => hx
  | i :: is => by
      rw [Item.lowerList]
      refine .bind (Item.lower_covered c inAsync i) (by grind) fun i' => ?_
      refine .bind (Item.lowerList_covered c inAsync is) (by grind) fun is' => ?_
      exact .pure (by grind)

theorem Scoped.lower_covered
    (c : Context) (inAsync : Bool) :
    (s : Scoped) → Lowering.Covered c s.names Stmt.namesList (s.lower c inAsync)
  | ⟨items, body, isAsync⟩ => by
      intro k code j hrun
      obtain ⟨-, -, items', body', i, hitems, hbody, hcode⟩ := Scoped.lower_eq_ok.mp hrun
      obtain ⟨hki, hitems⟩ := Item.lowerList_covered c inAsync items _ _ _ hitems
      obtain ⟨hij, hbody⟩ := Stmt.lowerList_covered c inAsync body _ _ _ hbody
      have hk : k ≤ k + items.length := Nat.le_add_right k _
      refine ⟨Nat.le_trans hk (Nat.le_trans hki hij), fun x hx => ?_⟩
      rw [Scoped.names, List.mem_append]
      rcases Context.mem_names_expandScoped hcode hx with hx | hx | hx
      · rcases hitems x hx with hx | hx
        · exact .inl (.inl hx)
        · exact .inr (hx.mono hk)
      · rcases hbody x hx with hx | hx
        · exact .inl (.inr hx)
        · exact .inr (hx.mono (Nat.le_trans hk hki))
      · exact .inr hx

end

/-! ## Lowered resources -/

/-- The names of a resolved binding are those that the resource binds. -/
theorem Item.names_of_resolve
    {item : Item} {b : ResolvedBinding} (h : item.resolve = .ok b) :
    b.names = item.boundNames := by
  rw [Item.resolve] at h
  rw [Item.boundNames]
  cases hbinding : item.binding with
  | none =>
      rw [hbinding] at h
      cases h
      rfl
  | some p =>
      rw [hbinding] at h
      dsimp only at h
      split at h
      · cases h
      · split at h
        · cases h
        · split at h
          · cases h
          · cases h
            rfl

/-- A checked binding has no reserved names, unless the language has scoped
statements of its own. -/
theorem Context.not_isReserved_of_checkBinding
    {c : Context} {item : Item} {x : String}
    (hstyle : c.conventions.expansion ≠ .native) (hcheck : c.checkBinding item = .ok ())
    (hx : x ∈ item.boundNames) : ¬c.isReserved x := by
  unfold checkBinding at hcheck
  split at hcheck
  · cases hcheck
  · rename_i b hresolve
    rw [if_neg hstyle] at hcheck
    split at hcheck
    · cases hcheck
    · rename_i hfind
      rw [← Item.names_of_resolve hresolve] at hx
      exact List.find?_eq_none.mp hfind x hx

/-- A lowered resource binds what its source binds, and its acquisition mentions
the names of its source and such that lowering puts in. -/
structure Context.LowersItem (c : Context) (k : Nat) (item item' : Item) : Prop where
  binding : item'.binding = item.binding
  names : ∀ x ∈ item'.acquire.names, x ∈ item.acquire.names ∨ c.Introduces k x

theorem Context.LowersItem.boundNames_eq
    {c : Context} {k : Nat} {item item' : Item} (h : c.LowersItem k item item') :
    item'.boundNames = item.boundNames := by
  unfold Item.boundNames
  rw [h.binding]

theorem Item.lowersItem_of_lower
    {c : Context} {inAsync : Bool} {k j : Nat} {item item' : Item}
    (h : (item.lower c inAsync).run k = .ok (item', j)) :
    k ≤ j ∧ c.checkBinding item = .ok () ∧ c.LowersItem k item item' := by
  obtain ⟨acquire, binding, arity⟩ := item
  rw [Item.lower] at h
  obtain ⟨_, i, hlift, h⟩ := Lowering.bind_eq_ok.mp h
  obtain ⟨_, hcheck, hr⟩ := Lowering.lift_eq_ok.mp hlift
  cases hr
  obtain ⟨acquire', i, hacquire, h⟩ := Lowering.bind_eq_ok.mp h
  cases Lowering.pure_eq_ok.mp h
  obtain ⟨hle, hnames⟩ := Expr.lower_covered c inAsync acquire _ _ _ hacquire
  exact ⟨hle, hcheck, rfl, hnames⟩

theorem Item.lowersItem_of_lowerList
    {c : Context} {inAsync : Bool} {k j : Nat} {items items' : List Item}
    (h : (Item.lowerList c inAsync items).run k = .ok (items', j)) :
    items'.length = items.length ∧ (∀ item ∈ items, c.checkBinding item = .ok ()) ∧
      ∀ item' ∈ items', ∃ item ∈ items, c.LowersItem k item item' := by
  induction items generalizing k items' with
  | nil =>
      cases h
      exact ⟨rfl, by simp, by simp⟩
  | cons item items ih =>
      rw [Item.lowerList] at h
      obtain ⟨item', i, hitem, h⟩ := Lowering.bind_eq_ok.mp h
      obtain ⟨items', i', hitems, h⟩ := Lowering.bind_eq_ok.mp h
      cases Lowering.pure_eq_ok.mp h
      obtain ⟨hki, hcheck, hlowers⟩ := Item.lowersItem_of_lower hitem
      obtain ⟨hlength, hchecks, hrest⟩ := ih hitems
      refine ⟨by simp [hlength], by simpa using ⟨hcheck, hchecks⟩, fun item₁ hmem => ?_⟩
      rcases List.mem_cons.mp hmem with rfl | hmem
      · exact ⟨item, List.mem_cons_self, hlowers⟩
      · obtain ⟨item₀, hmem₀, h₀⟩ := hrest item₁ hmem
        exact ⟨item₀, List.mem_cons_of_mem item hmem₀, h₀.binding,
          fun x hx => (h₀.names x hx).imp_right (·.mono hki)⟩

end Bracket
