import Bracket.Lowering.PackedReturn

/-!
# Exits of a closure

The exits of statements that become the body of a closure are their returns, breaks and
continues outside of nested functions, from left to right.  Each is listed with where it
stands: whether a loop of the statements has it in its body, and whether it stands in the
initialiser of a counting loop.

Packing should fail with the first jump to a loop around the closure, and otherwise pack
every return.  The main statement says that it does so, except that it passes over the
initialisers of counting loops: jumps there are not refused and returns there stay as
they are.
-/

namespace Bracket

/-- An exit of statements and where it stands. -/
structure Exit where
  kind : EarlyExit
  /-- It stands in the body of a loop. -/
  inLoop : Bool
  /-- It stands in the initialiser of a counting loop. -/
  inInit : Bool
  deriving DecidableEq, Repr

namespace Exit

/-- The exit is a return. -/
def isReturn (e : Exit) : Bool := e.kind = .returns

/-- The exit is a jump to a loop around the statements. -/
def escapes (e : Exit) : Bool := !e.isReturn && !e.inLoop

/-- What packing should answer where statements have the given exits and become `packed`:
the kind of the first jump to a loop around them or, if there is none, the packed
statements and whether there is a return. -/
def answer {α : Type} (exits : List Exit) (packed : α) : Except EarlyExit (α × Bool) :=
  match exits.find? escapes with
  | some e => .error e.kind
  | none => .ok (packed, exits.any isReturn)

end Exit

namespace Stmt

mutual

/-- The exits of a statement that stands in the body of a loop or in an initialiser, as
the flags say. -/
def exits (inLoop inInit : Bool) : Stmt → List Exit
  | .ret _ => [⟨.returns, inLoop, inInit⟩]
  | .breakLoop => [⟨.breaks, inLoop, inInit⟩]
  | .continueLoop => [⟨.continues, inLoop, inInit⟩]
  | .block body => exitsList inLoop inInit body
  | .ifElse _ a b => exits inLoop inInit a ++ exitsOption inLoop inInit b
  | .whileLoop _ body => exits true inInit body
  | .forLoop init _ _ body => exitsOption inLoop true init ++ exits true inInit body
  | .forEach _ _ body => exits true inInit body
  | .tryCatch body _ handler final =>
      exits inLoop inInit body ++ exitsOption inLoop inInit handler
        ++ exitsOption inLoop inInit final
  | .holding ⟨_, body, _⟩ => exitsList inLoop inInit body
  | .expr _ | .declare .. | .destructure .. | .throw _ | .function _ => []

def exitsList (inLoop inInit : Bool) : List Stmt → List Exit
  | [] => []
  | s :: ss => exits inLoop inInit s ++ exitsList inLoop inInit ss

def exitsOption (inLoop inInit : Bool) : Option Stmt → List Exit
  | none => []
  | some s => exits inLoop inInit s

end

mutual

/-- The statement with its returns packed, those in initialisers only if `inits` holds. -/
def packed (inits : Bool) : Stmt → Stmt
  | .ret none => .ret (some (.array []))
  | .ret (some e) => .ret (some (.array [e]))
  | .block body => .block (packedList inits body)
  | .ifElse test a b => .ifElse test (packed inits a) (packedOption inits b)
  | .whileLoop test body => .whileLoop test (packed inits body)
  | .forLoop init test update body =>
      .forLoop (if inits then packedOption inits init else init) test update (packed inits body)
  | .forEach x iterable body => .forEach x iterable (packed inits body)
  | .tryCatch body x handler final =>
      .tryCatch (packed inits body) x (packedOption inits handler) (packedOption inits final)
  | .holding ⟨items, body, isAsync⟩ => .holding ⟨items, packedList inits body, isAsync⟩
  | s => s

def packedList (inits : Bool) : List Stmt → List Stmt
  | [] => []
  | s :: ss => packed inits s :: packedList inits ss

def packedOption (inits : Bool) : Option Stmt → Option Stmt
  | none => none
  | some s => some (packed inits s)

end

end Stmt

/-! ## Answers -/

namespace Exit

variable {α β γ δ : Type} {xs ys zs : List Exit}

theorem answer_of_find
    {e : Exit} (h : xs.find? escapes = some e) (a : α) : answer xs a = .error e.kind := by
  rw [answer, h]

theorem answer_of_none
    (h : xs.find? escapes = none) (a : α) : answer xs a = .ok (a, xs.any isReturn) := by
  rw [answer, h]

/-- The answer for a statement with one part that has exits. -/
theorem answer_map
    (f : α → β) (a : α) :
    answer xs (f a) = (do
      let (a, found) ← answer xs a
      .ok (f a, found)) := by
  cases h : xs.find? escapes with
  | none =>
      rw [answer_of_none h, answer_of_none h]
      rfl
  | some e =>
      rw [answer_of_find h, answer_of_find h]
      rfl

/-- The answer for a statement with two parts that have exits. -/
theorem answer_append
    (f : α → β → γ) (a : α) (b : β) :
    answer (xs ++ ys) (f a b) = (do
      let (a, found) ← answer xs a
      let (b, found') ← answer ys b
      .ok (f a b, found || found')) := by
  cases h : xs.find? escapes with
  | some e =>
      have happend : (xs ++ ys).find? escapes = some e := by
        rw [List.find?_append, h]
        rfl
      rw [answer_of_find happend, answer_of_find h]
      rfl
  | none =>
      have happend : (xs ++ ys).find? escapes = ys.find? escapes := by
        rw [List.find?_append, h]
        rfl
      rw [answer_of_none h]
      cases h' : ys.find? escapes with
      | some e =>
          rw [answer_of_find (happend.trans h'), answer_of_find h']
          rfl
      | none =>
          rw [answer_of_none (happend.trans h'), answer_of_none h', List.any_append]
          rfl

/-- The answer for a statement with three parts that have exits. -/
theorem answer_append_append
    (f : α → β → γ → δ) (a : α) (b : β) (c : γ) :
    answer (xs ++ ys ++ zs) (f a b c) = (do
      let (a, found) ← answer xs a
      let (b, found') ← answer ys b
      let (c, found'') ← answer zs c
      .ok (f a b c, found || found' || found'')) := by
  have houter := @answer_append (α × β) γ δ (xs ++ ys) zs (fun p c => f p.1 p.2 c) (a, b) c
  rw [houter, answer_append Prod.mk a b]
  simp only [bind_assoc]
  rfl

/-- The exits that do not stand in initialisers. -/
def visited (exits : List Exit) : List Exit := exits.filter fun e => !e.inInit

@[simp] theorem visited_append
    (xs ys : List Exit) : visited (xs ++ ys) = visited xs ++ visited ys :=
  List.filter_append ..

theorem mem_visited {e : Exit} : e ∈ visited xs ↔ e ∈ xs ∧ e.inInit = false := by
  simp [visited]

/-- The exit matters for packing: it is a return, or a jump to a loop around the
statements. -/
def leaves (e : Exit) : Bool := e.isReturn || e.escapes

theorem find?_visited
    (h : ∀ e ∈ xs, e.inInit = true → e.escapes = false) :
    (visited xs).find? escapes = xs.find? escapes := by
  induction xs with
  | nil => rfl
  | cons e xs ih =>
      obtain ⟨he, hxs⟩ := List.forall_mem_cons.mp h
      rw [visited] at ih ⊢
      by_cases hinit : e.inInit = true
      · simp [hinit, he hinit, ih hxs]
      · simp [hinit, List.find?_cons, ih hxs]

theorem any_visited
    (h : ∀ e ∈ xs, e.inInit = true → e.isReturn = false) :
    (visited xs).any isReturn = xs.any isReturn := by
  induction xs with
  | nil => rfl
  | cons e xs ih =>
      obtain ⟨he, hxs⟩ := List.forall_mem_cons.mp h
      rw [visited] at ih ⊢
      by_cases hinit : e.inInit = true
      · rw [List.any_cons, he hinit, Bool.false_or, ← ih hxs]
        simp [hinit]
      · rw [List.any_cons, ← ih hxs]
        simp [hinit]

/-- Exits in initialisers that do not matter may be left out. -/
theorem answer_visited
    (h : ∀ e ∈ xs, e.inInit = true → e.leaves = false) (a : α) :
    answer (visited xs) a = answer xs a := by
  have hfind := find?_visited fun e he hinit => (Bool.or_eq_false_iff.mp (h e he hinit)).2
  have hany := any_visited fun e he hinit => (Bool.or_eq_false_iff.mp (h e he hinit)).1
  rw [answer, answer, hfind, hany]

end Exit

/-! ## What packing does -/

namespace Stmt

open Exit (answer visited)

mutual

/-- All exits of a statement in an initialiser stand in one. -/
theorem visited_exits_of_inInit (inLoop : Bool) : (s : Stmt) → visited (s.exits inLoop true) = []
  | .ret _ | .breakLoop | .continueLoop => rfl
  | .block body | .holding ⟨_, body, _⟩ => visited_exitsList_of_inInit inLoop body
  | .ifElse _ a b => by
      rw [exits, Exit.visited_append, visited_exits_of_inInit inLoop a,
        visited_exitsOption_of_inInit inLoop b, List.append_nil]
  | .whileLoop _ body | .forEach _ _ body => visited_exits_of_inInit true body
  | .forLoop init _ _ body => by
      rw [exits, Exit.visited_append, visited_exitsOption_of_inInit inLoop init,
        visited_exits_of_inInit true body, List.append_nil]
  | .tryCatch body _ handler final => by
      rw [exits, Exit.visited_append, Exit.visited_append, visited_exits_of_inInit inLoop body,
        visited_exitsOption_of_inInit inLoop handler, visited_exitsOption_of_inInit inLoop final,
        List.append_nil, List.append_nil]
  | .expr _ | .declare .. | .destructure .. | .throw _ | .function _ => rfl

theorem visited_exitsList_of_inInit (inLoop : Bool) :
    (ss : List Stmt) → visited (exitsList inLoop true ss) = []
  | [] => rfl
  | s :: ss => by
      rw [exitsList, Exit.visited_append, visited_exits_of_inInit inLoop s,
        visited_exitsList_of_inInit inLoop ss, List.append_nil]

theorem visited_exitsOption_of_inInit (inLoop : Bool) :
    (s : Option Stmt) → visited (exitsOption inLoop true s) = []
  | none => rfl
  | some s => visited_exits_of_inInit inLoop s

end

mutual

/-- Packing answers for the exits outside of initialisers.  The depth matters only by
whether a loop is around the statement. -/
theorem packReturns_eq
    (depth : Nat) :
    (s : Stmt) →
      packReturns depth s = answer (visited (s.exits (decide (0 < depth)) false)) (s.packed false)
  | .ret none => rfl
  | .ret (some _) => rfl
  | .breakLoop => by cases depth <;> rfl
  | .continueLoop => by cases depth <;> rfl
  | .block body => by
      rw [packReturns, packReturnsList_eq depth body, exits, packed, Exit.answer_map Stmt.block]
  | .ifElse test a b => by
      rw [packReturns, packReturns_eq depth a, packReturnsOption_eq depth b, exits, packed,
        Exit.visited_append, Exit.answer_append (Stmt.ifElse test)]
  | .whileLoop test body => by
      rw [packReturns, packReturns_eq (depth + 1) body, exits, packed,
        Exit.answer_map (Stmt.whileLoop test)]
      rfl
  | .forLoop init test update body => by
      rw [packReturns, packReturns_eq (depth + 1) body, exits, packed, Exit.visited_append,
        visited_exitsOption_of_inInit, if_neg Bool.false_ne_true,
        Exit.answer_map (Stmt.forLoop init test update)]
      rfl
  | .forEach x iterable body => by
      rw [packReturns, packReturns_eq (depth + 1) body, exits, packed,
        Exit.answer_map (Stmt.forEach x iterable)]
      rfl
  | .tryCatch body x handler final => by
      rw [packReturns, packReturns_eq depth body, packReturnsOption_eq depth handler,
        packReturnsOption_eq depth final, exits, packed, Exit.visited_append,
        Exit.visited_append,
        Exit.answer_append_append fun body handler final => Stmt.tryCatch body x handler final]
  | .holding ⟨items, body, isAsync⟩ => by
      rw [packReturns, packReturnsList_eq depth body, exits, packed,
        Exit.answer_map fun body => Stmt.holding ⟨items, body, isAsync⟩]
  | .expr _ | .declare .. | .destructure .. | .throw _ | .function _ => rfl

theorem packReturnsList_eq
    (depth : Nat) :
    (ss : List Stmt) →
      packReturnsList depth ss =
        answer (visited (exitsList (decide (0 < depth)) false ss)) (packedList false ss)
  | [] => rfl
  | s :: ss => by
      rw [packReturnsList, packReturns_eq depth s, packReturnsList_eq depth ss, exitsList,
        packedList, Exit.visited_append, Exit.answer_append List.cons]

theorem packReturnsOption_eq
    (depth : Nat) :
    (s : Option Stmt) →
      packReturnsOption depth s =
        answer (visited (exitsOption (decide (0 < depth)) false s)) (packedOption false s)
  | none => rfl
  | some s => by
      rw [packReturnsOption, packReturns_eq depth s, exitsOption, packedOption,
        Exit.answer_map some]

end

/-! ## Statements without exits in initialisers -/

mutual

/-- Where there is no return, packing changes nothing. -/
theorem packed_eq_self
    {inits inLoop inInit : Bool} :
    (s : Stmt) → (∀ e ∈ s.exits inLoop inInit, e.isReturn = false) → s.packed inits = s
  | .ret _, h => nomatch h _ List.mem_cons_self
  | .breakLoop, _ | .continueLoop, _ => rfl
  | .block body, h => by
      rw [packed, packedList_eq_self body h]
  | .ifElse _ a b, h => by
      obtain ⟨ha, hb⟩ := List.forall_mem_append.mp h
      rw [packed, packed_eq_self a ha, packedOption_eq_self b hb]
  | .whileLoop _ body, h => by
      rw [packed, packed_eq_self body h]
  | .forLoop init _ _ body, h => by
      obtain ⟨hinit, hbody⟩ := List.forall_mem_append.mp h
      rw [packed, packedOption_eq_self init hinit, packed_eq_self body hbody, ite_self]
  | .forEach _ _ body, h => by
      rw [packed, packed_eq_self body h]
  | .tryCatch body _ handler final, h => by
      obtain ⟨h, hfinal⟩ := List.forall_mem_append.mp h
      obtain ⟨hbody, hhandler⟩ := List.forall_mem_append.mp h
      rw [packed, packed_eq_self body hbody, packedOption_eq_self handler hhandler,
        packedOption_eq_self final hfinal]
  | .holding ⟨_, body, _⟩, h => by
      rw [packed, packedList_eq_self body h]
  | .expr _, _ | .declare .., _ | .destructure .., _ | .throw _, _ | .function _, _ => rfl

theorem packedList_eq_self
    {inits inLoop inInit : Bool} :
    (ss : List Stmt) → (∀ e ∈ exitsList inLoop inInit ss, e.isReturn = false) →
      packedList inits ss = ss
  | [], _ => rfl
  | s :: ss, h => by
      obtain ⟨hs, hss⟩ := List.forall_mem_append.mp h
      rw [packedList, packed_eq_self s hs, packedList_eq_self ss hss]

theorem packedOption_eq_self
    {inits inLoop inInit : Bool} :
    (s : Option Stmt) → (∀ e ∈ exitsOption inLoop inInit s, e.isReturn = false) →
      packedOption inits s = s
  | none, _ => rfl
  | some s, h => by
      rw [packedOption, packed_eq_self s h]

end

/-- An initialiser without returns stays as it is. -/
theorem packedOption_init_eq_self
    {inLoop : Bool} {init : Option Stmt}
    (h : ∀ e ∈ exitsOption inLoop true init, e.inInit = true → e.isReturn = false) :
    packedOption true init = init := by
  have hnone : ∀ e ∈ exitsOption inLoop true init, e.isReturn = false := by
    intro e he
    by_cases hinit : e.inInit = true
    · exact h e he hinit
    · have hvisited : e ∈ visited (exitsOption inLoop true init) :=
        Exit.mem_visited.mpr ⟨he, Bool.eq_false_iff.mpr hinit⟩
      rw [visited_exitsOption_of_inInit] at hvisited
      exact nomatch hvisited
  exact packedOption_eq_self init hnone

mutual

/-- It does not matter whether initialisers without returns are packed. -/
theorem packed_inits_eq
    {inLoop : Bool} :
    (s : Stmt) → (∀ e ∈ s.exits inLoop false, e.inInit = true → e.isReturn = false) →
      s.packed true = s.packed false
  | .ret none, _ | .ret (some _), _ | .breakLoop, _ | .continueLoop, _ => rfl
  | .block body, h => by
      rw [packed, packed, packedList_inits_eq body h]
  | .ifElse _ a b, h => by
      obtain ⟨ha, hb⟩ := List.forall_mem_append.mp h
      rw [packed, packed, packed_inits_eq a ha, packedOption_inits_eq b hb]
  | .whileLoop _ body, h => by
      rw [packed, packed, packed_inits_eq body h]
  | .forLoop init _ _ body, h => by
      obtain ⟨hinit, hbody⟩ := List.forall_mem_append.mp h
      rw [packed, packed, if_pos rfl, if_neg Bool.false_ne_true, packedOption_init_eq_self hinit,
        packed_inits_eq body hbody]
  | .forEach _ _ body, h => by
      rw [packed, packed, packed_inits_eq body h]
  | .tryCatch body _ handler final, h => by
      obtain ⟨h, hfinal⟩ := List.forall_mem_append.mp h
      obtain ⟨hbody, hhandler⟩ := List.forall_mem_append.mp h
      rw [packed, packed, packed_inits_eq body hbody, packedOption_inits_eq handler hhandler,
        packedOption_inits_eq final hfinal]
  | .holding ⟨_, body, _⟩, h => by
      rw [packed, packed, packedList_inits_eq body h]
  | .expr _, _ | .declare .., _ | .destructure .., _ | .throw _, _ | .function _, _ => rfl

theorem packedList_inits_eq
    {inLoop : Bool} :
    (ss : List Stmt) → (∀ e ∈ exitsList inLoop false ss, e.inInit = true → e.isReturn = false) →
      packedList true ss = packedList false ss
  | [], _ => rfl
  | s :: ss, h => by
      obtain ⟨hs, hss⟩ := List.forall_mem_append.mp h
      rw [packedList, packedList, packed_inits_eq s hs, packedList_inits_eq ss hss]

theorem packedOption_inits_eq
    {inLoop : Bool} :
    (s : Option Stmt) →
      (∀ e ∈ exitsOption inLoop false s, e.inInit = true → e.isReturn = false) →
        packedOption true s = packedOption false s
  | none, _ => rfl
  | some s, h => by
      rw [packedOption, packedOption, packed_inits_eq s h]

end

/-- Packing fails with the first jump to a loop around the closure and otherwise packs every
return and says whether there was one.  It passes over the initialisers of counting loops;
where no exit in an initialiser matters, the answer is the one for all exits. -/
theorem packReturns_answers_exits
    (ss : List Stmt) :
    packReturnsList 0 ss =
        answer (visited (exitsList false false ss)) (packedList false ss) ∧
      ((∀ e ∈ exitsList false false ss, e.inInit = true → e.leaves = false) →
        packReturnsList 0 ss = answer (exitsList false false ss) (packedList true ss)) := by
  have hvisited := packReturnsList_eq 0 ss
  refine ⟨hvisited, fun hinits => ?_⟩
  have hreturns : ∀ e ∈ exitsList false false ss, e.inInit = true → e.isReturn = false :=
    fun e he hinit => (Bool.or_eq_false_iff.mp (hinits e he hinit)).1
  rw [packedList_inits_eq ss hreturns, ← Exit.answer_visited hinits]
  exact hvisited

/-- A loop with an initialiser that only declares, a loop of its own jumps and returns. -/
theorem packReturns_answers_exits_of_loop :
    let loop : Stmt := .forLoop (some (.letVar "i" none)) none none
      (.block [.breakLoop, .ret (some (.ident "i"))])
    packReturnsList 0 [loop, .ret none] =
      answer (exitsList false false [loop, .ret none]) (packedList true [loop, .ret none]) := by
  intro loop
  exact (packReturns_answers_exits [loop, .ret none]).2 (by decide)

/-- A jump in an initialiser is not refused. -/
theorem packReturns_misses_break_of_init :
    let loop : Stmt := .forLoop (some .breakLoop) none none (.block [])
    packReturnsList 0 [loop] = .ok ([loop], false) ∧
      answer (exitsList false false [loop]) (packedList true [loop]) = .error .breaks := by
  exact ⟨rfl, rfl⟩

end Stmt

end Bracket
