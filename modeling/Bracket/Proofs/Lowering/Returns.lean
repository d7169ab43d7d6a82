import Bracket.Proofs.Lowering.Run

/-!
# Returns in statements

Where statements return from the function around them.  Packing finds every
return outside of loop initialisers, and lowering to protected calls makes no new
ones.
-/

namespace Bracket

namespace Stmt

mutual

/-- The statement contains a return from the function around it. -/
def returns : Stmt → Bool
  | .ret _ => true
  | .block body => returnsList body
  | .ifElse _ a b => returns a || returnsOption b
  | .whileLoop _ body => returns body
  | .forLoop init _ _ body => returnsOption init || returns body
  | .forEach _ _ body => returns body
  | .tryCatch body _ handler final =>
      returns body || returnsOption handler || returnsOption final
  | .holding ⟨_, body, _⟩ => returnsList body
  | _ => false

def returnsList : List Stmt → Bool
  | [] => false
  | s :: ss => returns s || returnsList ss

def returnsOption : Option Stmt → Bool
  | none => false
  | some s => returns s

end

mutual

/-- A loop initialiser of the statement contains a return from the function
around it. -/
def returnsInInit : Stmt → Bool
  | .block body => returnsInInitList body
  | .ifElse _ a b => returnsInInit a || returnsInInitOption b
  | .whileLoop _ body => returnsInInit body
  | .forLoop init _ _ body => returnsOption init || returnsInInit body
  | .forEach _ _ body => returnsInInit body
  | .tryCatch body _ handler final =>
      returnsInInit body || returnsInInitOption handler || returnsInInitOption final
  | .holding ⟨_, body, _⟩ => returnsInInitList body
  | _ => false

def returnsInInitList : List Stmt → Bool
  | [] => false
  | s :: ss => returnsInInit s || returnsInInitList ss

def returnsInInitOption : Option Stmt → Bool
  | none => false
  | some s => returnsInInit s

end

@[simp] theorem returnsList_append
    (a b : List Stmt) : returnsList (a ++ b) = (returnsList a || returnsList b) := by
  induction a with
  | nil => simp [returnsList]
  | cons s a ih => simp [returnsList, ih, Bool.or_assoc]

@[simp] theorem returns_ofList (body : List Stmt) : (ofList body).returns = returnsList body := by
  match body with
  | [] => simp [ofList, returns]
  | [s] => simp [ofList, returnsList]
  | s :: t :: rest => simp [ofList, returns]

@[simp] theorem returnsInInitList_append
    (a b : List Stmt) :
    returnsInInitList (a ++ b) = (returnsInInitList a || returnsInInitList b) := by
  induction a with
  | nil => simp [returnsInInitList]
  | cons s a ih => simp [returnsInInitList, ih, Bool.or_assoc]

@[simp] theorem returnsInInit_ofList
    (body : List Stmt) : (ofList body).returnsInInit = returnsInInitList body := by
  match body with
  | [] => simp [ofList, returnsInInit]
  | [s] => simp [ofList, returnsInInitList]
  | s :: t :: rest => simp [ofList, returnsInInit]

mutual

theorem returns_of_returnsInInit : (s : Stmt) → s.returnsInInit → s.returns
  | .block body, h => returnsList_of_returnsInInitList body h
  | .ifElse _ a b, h => by
      rw [returnsInInit, Bool.or_eq_true] at h
      rw [returns, Bool.or_eq_true]
      exact h.imp (returns_of_returnsInInit a) (returnsOption_of_returnsInInitOption b)
  | .whileLoop _ body, h => returns_of_returnsInInit body h
  | .forLoop init _ _ body, h => by
      rw [returnsInInit, Bool.or_eq_true] at h
      rw [returns, Bool.or_eq_true]
      exact h.imp_right (returns_of_returnsInInit body)
  | .forEach _ _ body, h => returns_of_returnsInInit body h
  | .tryCatch body _ handler final, h => by
      rw [returnsInInit, Bool.or_eq_true, Bool.or_eq_true] at h
      rw [returns, Bool.or_eq_true, Bool.or_eq_true]
      exact h.imp
        (Or.imp (returns_of_returnsInInit body) (returnsOption_of_returnsInInitOption handler))
        (returnsOption_of_returnsInInitOption final)
  | .holding ⟨_, body, _⟩, h => returnsList_of_returnsInInitList body h

theorem returnsList_of_returnsInInitList :
    (ss : List Stmt) → returnsInInitList ss → returnsList ss
  | s :: ss, h => by
      rw [returnsInInitList, Bool.or_eq_true] at h
      rw [returnsList, Bool.or_eq_true]
      exact h.imp (returns_of_returnsInInit s) (returnsList_of_returnsInInitList ss)

theorem returnsOption_of_returnsInInitOption :
    (s : Option Stmt) → returnsInInitOption s → returnsOption s
  | some s, h => returns_of_returnsInInit s h

end

theorem returnsInInitOption_eq_false
    {s : Option Stmt} (h : returnsOption s = false) : returnsInInitOption s = false :=
  Bool.eq_false_iff.mpr fun hinit =>
    Bool.eq_false_iff.mp h (returnsOption_of_returnsInInitOption s hinit)

/-! ## Packing -/

mutual

/-- Inside of a loop packing always succeeds. -/
theorem packReturns_succ
    (depth : Nat) :
    (s : Stmt) → ∃ s' found, packReturns (depth + 1) s = .ok (s', found)
  | .ret value => ⟨_, _, rfl⟩
  | .breakLoop => ⟨_, _, rfl⟩
  | .continueLoop => ⟨_, _, rfl⟩
  | .block body => by
      obtain ⟨body', _, hbody⟩ := packReturnsList_succ depth body
      exact ⟨_, _, by rw [packReturns, hbody]; rfl⟩
  | .ifElse test a b => by
      obtain ⟨a', _, ha⟩ := packReturns_succ depth a
      obtain ⟨b', _, hb⟩ := packReturnsOption_succ depth b
      exact ⟨_, _, by rw [packReturns, ha, hb]; rfl⟩
  | .whileLoop test body => by
      obtain ⟨body', _, hbody⟩ := packReturns_succ (depth + 1) body
      exact ⟨_, _, by rw [packReturns, hbody]; rfl⟩
  | .forLoop init test update body => by
      obtain ⟨body', _, hbody⟩ := packReturns_succ (depth + 1) body
      exact ⟨_, _, by rw [packReturns, hbody]; rfl⟩
  | .forEach x iterable body => by
      obtain ⟨body', _, hbody⟩ := packReturns_succ (depth + 1) body
      exact ⟨_, _, by rw [packReturns, hbody]; rfl⟩
  | .tryCatch body x handler final => by
      obtain ⟨body', _, hbody⟩ := packReturns_succ depth body
      obtain ⟨handler', _, hhandler⟩ := packReturnsOption_succ depth handler
      obtain ⟨final', _, hfinal⟩ := packReturnsOption_succ depth final
      exact ⟨_, _, by rw [packReturns, hbody, hhandler, hfinal]; rfl⟩
  | .holding ⟨items, body, isAsync⟩ => by
      obtain ⟨body', _, hbody⟩ := packReturnsList_succ depth body
      exact ⟨_, _, by rw [packReturns, hbody]; rfl⟩
  | .expr _ | .declare .. | .destructure .. | .throw _ | .function _ => ⟨_, _, rfl⟩

theorem packReturnsList_succ
    (depth : Nat) :
    (ss : List Stmt) → ∃ ss' found, packReturnsList (depth + 1) ss = .ok (ss', found)
  | [] => ⟨_, _, rfl⟩
  | s :: ss => by
      obtain ⟨s', _, hs⟩ := packReturns_succ depth s
      obtain ⟨ss', _, hss⟩ := packReturnsList_succ depth ss
      exact ⟨_, _, by rw [packReturnsList, hs, hss]; rfl⟩

theorem packReturnsOption_succ
    (depth : Nat) :
    (s : Option Stmt) → ∃ s' found, packReturnsOption (depth + 1) s = .ok (s', found)
  | none => ⟨_, _, rfl⟩
  | some s => by
      obtain ⟨s', _, hs⟩ := packReturns_succ depth s
      exact ⟨_, _, by rw [packReturnsOption, hs]; rfl⟩

end

mutual

/-- Packing finds returns only where there are some. -/
theorem not_found_of_packReturns
    {depth : Nat} {s' : Stmt} {found : Bool} :
    (s : Stmt) → packReturns depth s = .ok (s', found) → s.returns = false → found = false
  | .ret _, _, hreturns => by simp [returns] at hreturns
  | .breakLoop, h, _ => by
      rw [packReturns] at h
      split at h <;> cases h
      rfl
  | .continueLoop, h, _ => by
      rw [packReturns] at h
      split at h <;> cases h
      rfl
  | .block body, h, hreturns => by
      obtain ⟨⟨body', found₁⟩, hbody, h⟩ := Except.bind_eq_ok.mp h
      cases h
      rw [returns] at hreturns
      exact not_found_of_packReturnsList body hbody hreturns
  | .ifElse test a b, h, hreturns => by
      obtain ⟨⟨a', found₁⟩, ha, h⟩ := Except.bind_eq_ok.mp h
      obtain ⟨⟨b', found₂⟩, hb, h⟩ := Except.bind_eq_ok.mp h
      cases h
      rw [returns, Bool.or_eq_false_iff] at hreturns
      rw [not_found_of_packReturns a ha hreturns.1,
        not_found_of_packReturnsOption b hb hreturns.2]
      rfl
  | .whileLoop test body, h, hreturns => by
      obtain ⟨⟨body', found₁⟩, hbody, h⟩ := Except.bind_eq_ok.mp h
      cases h
      rw [returns] at hreturns
      exact not_found_of_packReturns body hbody hreturns
  | .forLoop init test update body, h, hreturns => by
      obtain ⟨⟨body', found₁⟩, hbody, h⟩ := Except.bind_eq_ok.mp h
      cases h
      rw [returns, Bool.or_eq_false_iff] at hreturns
      exact not_found_of_packReturns body hbody hreturns.2
  | .forEach x iterable body, h, hreturns => by
      obtain ⟨⟨body', found₁⟩, hbody, h⟩ := Except.bind_eq_ok.mp h
      cases h
      rw [returns] at hreturns
      exact not_found_of_packReturns body hbody hreturns
  | .tryCatch body x handler final, h, hreturns => by
      obtain ⟨⟨body', found₁⟩, hbody, h⟩ := Except.bind_eq_ok.mp h
      obtain ⟨⟨handler', found₂⟩, hhandler, h⟩ := Except.bind_eq_ok.mp h
      obtain ⟨⟨final', found₃⟩, hfinal, h⟩ := Except.bind_eq_ok.mp h
      cases h
      rw [returns, Bool.or_eq_false_iff, Bool.or_eq_false_iff] at hreturns
      rw [not_found_of_packReturns body hbody hreturns.1.1,
        not_found_of_packReturnsOption handler hhandler hreturns.1.2,
        not_found_of_packReturnsOption final hfinal hreturns.2]
      rfl
  | .holding ⟨items, body, isAsync⟩, h, hreturns => by
      obtain ⟨⟨body', found₁⟩, hbody, h⟩ := Except.bind_eq_ok.mp h
      cases h
      rw [returns] at hreturns
      exact not_found_of_packReturnsList body hbody hreturns
  | .expr _, h, _ | .declare .., h, _ | .destructure .., h, _ | .throw _, h, _
  | .function _, h, _ => by
      cases h
      rfl

theorem not_found_of_packReturnsList
    {depth : Nat} {ss' : List Stmt} {found : Bool} :
    (ss : List Stmt) → packReturnsList depth ss = .ok (ss', found) →
      returnsList ss = false → found = false
  | [], h, _ => by
      cases h
      rfl
  | s :: ss, h, hreturns => by
      obtain ⟨⟨s', found₁⟩, hs, h⟩ := Except.bind_eq_ok.mp h
      obtain ⟨⟨ss', found₂⟩, hss, h⟩ := Except.bind_eq_ok.mp h
      cases h
      rw [returnsList, Bool.or_eq_false_iff] at hreturns
      rw [not_found_of_packReturns s hs hreturns.1,
        not_found_of_packReturnsList ss hss hreturns.2]
      rfl

theorem not_found_of_packReturnsOption
    {depth : Nat} {s' : Option Stmt} {found : Bool} :
    (s : Option Stmt) → packReturnsOption depth s = .ok (s', found) →
      returnsOption s = false → found = false
  | none, h, _ => by
      cases h
      rfl
  | some s, h, hreturns => by
      obtain ⟨⟨s', found₁⟩, hs, h⟩ := Except.bind_eq_ok.mp h
      cases h
      rw [returnsOption] at hreturns
      exact not_found_of_packReturns s hs hreturns

end

/-! ## Statements that only bind -/

/-- The statement declares variables and does nothing else. -/
def isBinding : Stmt → Bool
  | .declare .. => true
  | .destructure .. => true
  | _ => false

theorem returns_of_isBinding : (b : Stmt) → b.isBinding → b.returns = false
  | .declare .., _ => rfl
  | .destructure .., _ => rfl

theorem returnsList_of_isBinding
    {binds : List Stmt} (hbinds : ∀ b ∈ binds, b.isBinding) : returnsList binds = false := by
  induction binds with
  | nil => rfl
  | cons b binds ih =>
      rw [returnsList, returns_of_isBinding b (hbinds b List.mem_cons_self),
        ih fun b hb => hbinds b (List.mem_cons_of_mem _ hb)]
      rfl

theorem returnsInInitList_of_isBinding
    {binds : List Stmt} (hbinds : ∀ b ∈ binds, b.isBinding) : returnsInInitList binds = false :=
  Bool.eq_false_iff.mpr fun hinit =>
    Bool.eq_false_iff.mp (returnsList_of_isBinding hbinds)
      (returnsList_of_returnsInInitList binds hinit)

end Stmt

mutual

theorem Pattern.isBinding_indexedBindings
    {base : UInt64} {b : Stmt} :
    (p : Pattern) → (source : Expr) → b ∈ p.indexedBindings base source → b.isBinding
  | .name x, source, h => by
      rw [Pattern.indexedBindings, List.mem_singleton] at h
      rw [h]
      rfl
  | .tuple slots, source, h => by
      rw [Pattern.indexedBindings] at h
      exact Pattern.isBinding_indexedSlots slots source 0 h

theorem Pattern.isBinding_indexedSlots
    {base : UInt64} {b : Stmt} :
    (ps : List Pattern) → (source : Expr) → (i : Nat) →
      b ∈ Pattern.indexedSlots base source i ps → b.isBinding
  | [], source, i, h => by simp [Pattern.indexedSlots] at h
  | p :: ps, source, i, h => by
      rw [Pattern.indexedSlots, List.mem_append] at h
      rcases h with h | h
      · exact Pattern.isBinding_indexedBindings p _ h
      · exact Pattern.isBinding_indexedSlots ps source (i + 1) h

end

theorem Context.isBinding_bindEntryValue
    {c : Context} {n : Nat} {binding : Option Pattern} {b : Stmt}
    (h : b ∈ c.bindEntryValue n binding) : b.isBinding := by
  unfold bindEntryValue at h
  split at h
  · simp at h
  · rw [List.mem_singleton] at h
    rw [h]
    rfl
  · dsimp only at h
    split at h
    · rw [List.mem_singleton] at h
      rw [h]
      rfl
    · exact Pattern.isBinding_indexedBindings _ _ h

/-! ## Lowering -/

namespace Context

variable {c : Context} {n : Nat} {item : Item} {inner code : List Stmt}

/-- A protected call returns only if the code in it does, and never in a loop
initialiser. -/
theorem returnsList_expandProtected
    (hcode : c.expandProtected n item inner = .ok code) :
    (Stmt.returnsList code → Stmt.returnsList inner) ∧ Stmt.returnsInInitList code = false := by
  unfold expandProtected at hcode
  split at hcode
  · cases hcode
  · rename_i guarded found hpack
    cases hcode
    have hfound : Stmt.returnsList inner = false → found = false := by
      intro hreturns
      apply Stmt.not_found_of_packReturnsList _ hpack
      rw [Stmt.returnsList_append, hreturns,
        Stmt.returnsList_of_isBinding fun b hb => isBinding_bindEntryValue hb]
      rfl
    have henter : Stmt.returnsList (c.enterStatements n item (c.enterCall n)) = false := by
      unfold enterStatements
      split <;> rfl
    have henter' : Stmt.returnsInInitList (c.enterStatements n item (c.enterCall n)) = false := by
      unfold enterStatements
      split <;> rfl
    refine ⟨fun hreturns => ?_, ?_⟩
    · cases hinner : Stmt.returnsList inner with
      | true => rfl
      | false =>
          rw [hfound hinner, Stmt.returnsList_append, henter] at hreturns
          exact nomatch hreturns
    · rw [Stmt.returnsInInitList_append, henter']
      cases found <;> rfl

theorem returnsList_expandItems
    {isAsync : Bool} {items : List Item} (hstyle : c.conventions.expansion = .protectedCall)
    (hcode : c.expandItems isAsync n items inner = .ok code) :
    (Stmt.returnsList code → Stmt.returnsList inner) ∧
      (Stmt.returnsInInitList code → items = [] ∧ Stmt.returnsInInitList inner) := by
  induction items generalizing n code with
  | nil =>
      cases hcode
      exact ⟨id, fun h => ⟨rfl, h⟩⟩
  | cons item items ih =>
      obtain ⟨code', hcode', hcode⟩ := Except.bind_eq_ok.mp hcode
      rw [if_pos hstyle] at hcode
      obtain ⟨hreturns, hinit⟩ := returnsList_expandProtected hcode
      refine ⟨fun h => (ih hcode').1 (hreturns h), fun h => ?_⟩
      rw [hinit] at h
      exact nomatch h

end Context

section Lowering

open Stmt Lowering

variable {c : Context} {inAsync : Bool}

mutual

/-- Lowered statements return only where their source does. -/
theorem Stmt.returnsList_lower
    {k j : Nat} {ss : List Stmt} (hstyle : c.conventions.expansion = .protectedCall) :
    (s : Stmt) → (s.lower c inAsync).run k = .ok (ss, j) →
      (returnsList ss → s.returns) ∧ (returnsInInitList ss → s.returnsInInit)
  | .expr e, h => by
      rw [Stmt.lower] at h
      obtain ⟨e', _, -, h⟩ := bind_eq_ok.mp h
      cases pure_eq_ok.mp h
      exact ⟨id, id⟩
  | .declare x i m, h => by
      rw [Stmt.lower] at h
      obtain ⟨i', _, -, h⟩ := bind_eq_ok.mp h
      cases pure_eq_ok.mp h
      exact ⟨id, id⟩
  | .destructure p i, h => by
      rw [Stmt.lower] at h
      obtain ⟨i', _, -, h⟩ := bind_eq_ok.mp h
      cases pure_eq_ok.mp h
      exact ⟨id, id⟩
  | .block b, h => by
      rw [Stmt.lower] at h
      obtain ⟨b', _, hb, h⟩ := bind_eq_ok.mp h
      cases pure_eq_ok.mp h
      obtain ⟨hret, hinit⟩ := Stmt.returnsList_lowerList hstyle b hb
      simpa [returnsList, returns, returnsInInitList, returnsInInit] using ⟨hret, hinit⟩
  | .ifElse t a b, h => by
      rw [Stmt.lower] at h
      obtain ⟨t', _, -, h⟩ := bind_eq_ok.mp h
      obtain ⟨a', _, ha, h⟩ := bind_eq_ok.mp h
      obtain ⟨b', _, hb, h⟩ := bind_eq_ok.mp h
      cases pure_eq_ok.mp h
      obtain ⟨hret, hinit⟩ := Stmt.returnsList_lower hstyle a ha
      obtain ⟨hret', hinit'⟩ := Stmt.returnsList_lowerOption hstyle b hb
      simp only [returnsList, returns, returnsInInitList, returnsInInit, returns_ofList,
        returnsInInit_ofList, Bool.or_false, Bool.or_eq_true]
      exact ⟨Or.imp hret hret', Or.imp hinit hinit'⟩
  | .whileLoop t b, h => by
      rw [Stmt.lower] at h
      obtain ⟨t', _, -, h⟩ := bind_eq_ok.mp h
      obtain ⟨b', _, hb, h⟩ := bind_eq_ok.mp h
      cases pure_eq_ok.mp h
      obtain ⟨hret, hinit⟩ := Stmt.returnsList_lower hstyle b hb
      simpa [returnsList, returns, returnsInInitList, returnsInInit] using ⟨hret, hinit⟩
  | .forLoop i t u b, h => by
      rw [Stmt.lower] at h
      obtain ⟨i', _, hi, h⟩ := bind_eq_ok.mp h
      obtain ⟨t', _, -, h⟩ := bind_eq_ok.mp h
      obtain ⟨u', _, -, h⟩ := bind_eq_ok.mp h
      obtain ⟨b', _, hb, h⟩ := bind_eq_ok.mp h
      cases pure_eq_ok.mp h
      obtain ⟨hret, -⟩ := Stmt.returnsList_lowerOption hstyle i hi
      obtain ⟨hret', hinit'⟩ := Stmt.returnsList_lower hstyle b hb
      simp only [returnsList, returns, returnsInInitList, returnsInInit, returns_ofList,
        returnsInInit_ofList, Bool.or_false, Bool.or_eq_true]
      exact ⟨Or.imp hret hret', Or.imp hret hinit'⟩
  | .forEach x i b, h => by
      rw [Stmt.lower] at h
      obtain ⟨i', _, -, h⟩ := bind_eq_ok.mp h
      obtain ⟨b', _, hb, h⟩ := bind_eq_ok.mp h
      cases pure_eq_ok.mp h
      obtain ⟨hret, hinit⟩ := Stmt.returnsList_lower hstyle b hb
      simpa [returnsList, returns, returnsInInitList, returnsInInit] using ⟨hret, hinit⟩
  | .ret v, h => by
      rw [Stmt.lower] at h
      obtain ⟨v', _, -, h⟩ := bind_eq_ok.mp h
      cases pure_eq_ok.mp h
      exact ⟨id, id⟩
  | .breakLoop, h => by
      rw [Stmt.lower] at h
      cases pure_eq_ok.mp h
      exact ⟨id, id⟩
  | .continueLoop, h => by
      rw [Stmt.lower] at h
      cases pure_eq_ok.mp h
      exact ⟨id, id⟩
  | .throw e, h => by
      rw [Stmt.lower] at h
      obtain ⟨e', _, -, h⟩ := bind_eq_ok.mp h
      cases pure_eq_ok.mp h
      exact ⟨id, id⟩
  | .tryCatch b p g f, h => by
      rw [Stmt.lower] at h
      obtain ⟨b', _, hb, h⟩ := bind_eq_ok.mp h
      obtain ⟨g', _, hg, h⟩ := bind_eq_ok.mp h
      obtain ⟨f', _, hf, h⟩ := bind_eq_ok.mp h
      cases pure_eq_ok.mp h
      obtain ⟨hret, hinit⟩ := Stmt.returnsList_lower hstyle b hb
      obtain ⟨hret', hinit'⟩ := Stmt.returnsList_lowerOption hstyle g hg
      obtain ⟨hret'', hinit''⟩ := Stmt.returnsList_lowerOption hstyle f hf
      simp only [returnsList, returns, returnsInInitList, returnsInInit, returns_ofList,
        returnsInInit_ofList, Bool.or_false, Bool.or_eq_true]
      exact ⟨Or.imp (Or.imp hret hret') hret'', Or.imp (Or.imp hinit hinit') hinit''⟩
  | .function f, h => by
      rw [Stmt.lower] at h
      obtain ⟨f', _, -, h⟩ := bind_eq_ok.mp h
      cases pure_eq_ok.mp h
      exact ⟨id, id⟩
  | .holding ⟨items, body, isAsync⟩, h => by
      rw [Stmt.lower] at h
      obtain ⟨-, -, items', body', i, -, hbody, hcode⟩ := Scoped.lower_eq_ok.mp h
      rw [Context.expandScoped, if_neg (by simp [hstyle])] at hcode
      obtain ⟨hret, hinit⟩ := Stmt.returnsList_lowerList hstyle body hbody
      obtain ⟨hret', hinit'⟩ := Context.returnsList_expandItems hstyle hcode
      rw [returns, returnsInInit]
      exact ⟨fun h => hret (hret' h), fun h => hinit (hinit' h).2⟩

theorem Stmt.returnsList_lowerList
    {k j : Nat} {ss' : List Stmt} (hstyle : c.conventions.expansion = .protectedCall) :
    (ss : List Stmt) → (Stmt.lowerList c inAsync ss).run k = .ok (ss', j) →
      (returnsList ss' → returnsList ss) ∧ (returnsInInitList ss' → returnsInInitList ss)
  | [], h => by
      rw [Stmt.lowerList] at h
      cases pure_eq_ok.mp h
      exact ⟨id, id⟩
  | s :: ss, h => by
      rw [Stmt.lowerList] at h
      obtain ⟨s', _, hs, h⟩ := bind_eq_ok.mp h
      obtain ⟨ss', _, hss, h⟩ := bind_eq_ok.mp h
      cases pure_eq_ok.mp h
      obtain ⟨hret, hinit⟩ := Stmt.returnsList_lower hstyle s hs
      obtain ⟨hret', hinit'⟩ := Stmt.returnsList_lowerList hstyle ss hss
      simp only [returnsList, returnsInInitList, returnsList_append, returnsInInitList_append,
        Bool.or_eq_true]
      exact ⟨Or.imp hret hret', Or.imp hinit hinit'⟩

theorem Stmt.returnsList_lowerOption
    {k j : Nat} {s' : Option Stmt} (hstyle : c.conventions.expansion = .protectedCall) :
    (s : Option Stmt) → (Stmt.lowerOption c inAsync s).run k = .ok (s', j) →
      (returnsOption s' → returnsOption s) ∧ (returnsInInitOption s' → returnsInInitOption s)
  | none, h => by
      rw [Stmt.lowerOption] at h
      cases pure_eq_ok.mp h
      exact ⟨id, id⟩
  | some s, h => by
      rw [Stmt.lowerOption] at h
      obtain ⟨s', _, hs, h⟩ := bind_eq_ok.mp h
      cases pure_eq_ok.mp h
      simpa [returnsOption, returnsInInitOption] using Stmt.returnsList_lower hstyle s hs

end

end Lowering

end Bracket
