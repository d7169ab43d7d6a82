import Bracket.Proofs.Target.Phrases
import Bracket.Proofs.Target.Python

/-!
# The indentation of Python code

The lines of statements form suites, with one exception: an initialised counting loop begins
on the line of its initialiser, and this line is indented once for the loop and once for
itself.  At the margin this makes no difference.  Inside of a suite the line stands too deep.

The initialisers can be put in front of their loops before printing.  The main statement is
that the lines that are printed then are well indented for every program, that the program
itself has the same lines up to deeper ones, and that there are deeper ones just if an
initialised loop stands in a suite.
-/

namespace Bracket

/-! ## Initialised loops -/

mutual

/-- Every initialiser is put in front of its loop. -/
def Stmt.hoistInits : Stmt → Stmt
  | .block b => .block (Stmt.hoistInitsList b)
  | .ifElse t c a => .ifElse t c.hoistInits (Stmt.hoistInitsOption a)
  | .whileLoop t b => .whileLoop t b.hoistInits
  | .forLoop none t u b => .forLoop none t u b.hoistInits
  | .forLoop (some i) t u b => .block [i.hoistInits, .forLoop none t u b.hoistInits]
  | .forEach x i b => .forEach x i b.hoistInits
  | .tryCatch b p c f =>
      .tryCatch b.hoistInits p (Stmt.hoistInitsOption c) (Stmt.hoistInitsOption f)
  | .function ⟨name, params, body, isAsync⟩ =>
      .function ⟨name, params, Stmt.hoistInitsList body, isAsync⟩
  | .holding ⟨items, body, isAsync⟩ => .holding ⟨items, Stmt.hoistInitsList body, isAsync⟩
  | s => s

def Stmt.hoistInitsList : List Stmt → List Stmt
  | [] => []
  | s :: ss => s.hoistInits :: Stmt.hoistInitsList ss

def Stmt.hoistInitsOption : Option Stmt → Option Stmt
  | none => none
  | some s => some s.hoistInits

end

mutual

/-- An initialised loop stands in a suite; `inside` says whether the statement itself does. -/
def Stmt.hasInitInside (inside : Bool) : Stmt → Bool
  | .block b => Stmt.hasInitInsideList inside b
  | .ifElse _ c a => c.hasInitInside true || Stmt.hasInitInsideOption true a
  | .whileLoop _ b => b.hasInitInside true
  | .forLoop none _ _ b => b.hasInitInside true
  | .forLoop (some i) _ _ b => inside || (i.hasInitInside inside || b.hasInitInside true)
  | .forEach _ _ b => b.hasInitInside true
  | .tryCatch b _ c f =>
      b.hasInitInside true || (Stmt.hasInitInsideOption true c || Stmt.hasInitInsideOption true f)
  | .function ⟨_, _, body, _⟩ => Stmt.hasInitInsideList true body
  | .holding ⟨_, body, _⟩ => Stmt.hasInitInsideList true body
  | _ => false

def Stmt.hasInitInsideList (inside : Bool) : List Stmt → Bool
  | [] => false
  | s :: ss => s.hasInitInside inside || Stmt.hasInitInsideList inside ss

def Stmt.hasInitInsideOption (inside : Bool) : Option Stmt → Bool
  | none => false
  | some s => s.hasInitInside inside

end

def Program.hoistInits (p : Program) : Program := ⟨Stmt.hoistInitsList p.body⟩

/-- An initialised loop of the program stands in a suite. -/
def Program.hasInitInside (p : Program) : Bool := Stmt.hasInitInsideList false p.body

/-! ## Statements form suites -/

namespace Text

variable {d : Nat} {a b : String} {body : List Line}

theorem Phrase.not_opensSuite (h : Phrase a) : opensSuite a.toList = false := by
  have hends := h.ends
  rw [Ends] at hends
  cases hlast : a.toList.getLast? with
  | none =>
      rw [hlast] at hends
      exact absurd hends Bool.false_ne_true
  | some c =>
      rw [hlast, Option.any_some, bne_iff_ne] at hends
      rw [opensSuite, hlast, beq_eq_false_iff_ne]
      exact fun heq => hends (Option.some.inj heq)

theorem opensSuite_append
    (a : String) (h : opensSuite b.toList = true) : opensSuite (a ++ b).toList = true := by
  have hlast : b.toList.getLast? = some ':' := eq_of_beq h
  rw [opensSuite, String.toList_append, List.getLast?_append, hlast]
  rfl

theorem Suite.phrase (h : Phrase a) : Suite d [⟨d, a⟩] := .line h.inline h.not_opensSuite

/-- A clause whose head is a beginning with a colon behind it. -/
theorem Suite.head
    (ha : Opening a) (hb : OneLine b) (hcolon : opensSuite b.toList = true)
    (hbody : Suite (d + 1) body) : Suite d (⟨d, a ++ b⟩ :: body) :=
  .clause (ha.append hb).inline (opensSuite_append a hcolon) hbody

/-- Lines of any number of statements. -/
def Statements (d : Nat) (lines : List Line) : Prop := lines = [] ∨ Suite d lines

theorem Suite.append_statements
    {lines rest : List Line} (h : Suite d lines) (hrest : Statements d rest) :
    Suite d (lines ++ rest) := by
  rcases hrest with rfl | hrest
  · rwa [List.append_nil]
  · exact h.append hrest

theorem Statements.append
    {lines rest : List Line} (h : Statements d lines) (hrest : Statements d rest) :
    Statements d (lines ++ rest) := by
  rcases h with rfl | h
  · exact hrest
  · exact .inr (h.append_statements hrest)

theorem Statements.wellIndented
    {lines : List Line} (h : Statements 0 lines) (width : Nat) :
    WellIndented width (renderLines width lines) := by
  rcases h with rfl | h
  · exact ⟨nofun, .nil, nofun⟩
  · exact h.wellIndented width

end Text

namespace Python

open Text

theorem opening_def (isAsync : Bool) : Opening (asyncMark isAsync ++ "def ") := by
  cases isAsync <;> exact ⟨by decide, by decide⟩

theorem opening_with (isAsync : Bool) : Opening (asyncMark isAsync ++ "with ") := by
  cases isAsync <;> exact ⟨by decide, by decide⟩

theorem oneLine_loopTest
    (t : Option Expr) (h : Identifiers (Expr.wordsOption t)) : OneLine (loopTest t) := by
  cases t with
  | none => exact show OneLine "True" by decide
  | some t => exact (phrase_expr t h).oneLine

theorem statements_updateLines
    (d : Nat) (u : Option Expr) (h : Identifiers (Expr.wordsOption u)) :
    Statements d (updateLines d u) := by
  cases u with
  | none => exact .inl rfl
  | some u => exact .inr (.phrase (phrase_expr u h))

/-- A counting loop without an initialiser. -/
theorem suite_forLoop
    {d : Nat} {t u : Option Expr} {b : Stmt} (ht : Identifiers (Expr.wordsOption t))
    (hu : Identifiers (Expr.wordsOption u)) (hbody : Suite (d + 1) (stmt (d + 1) b)) :
    Suite d (stmt d (.forLoop none t u b)) := by
  have hwhile : Opening "while " := ⟨by decide, by decide⟩
  rw [stmt_forLoop, initLines, List.nil_append]
  exact .head (hwhile.append (oneLine_loopTest t ht)) (by decide) (by decide)
    (hbody.append_statements (statements_updateLines (d + 1) u hu))

/-- A clause of a `try` statement that may be missing. -/
theorem statements_clauseLines
    {d : Nat} {head : String} {s : Option Stmt} (hinline : Inline head)
    (hopens : opensSuite head.toList = true)
    (hbody : ∀ body ∈ s, Suite (d + 1) (stmt (d + 1) body)) :
    Statements d (clauseLines d head s) := by
  cases s with
  | none => exact .inl rfl
  | some s => exact .inr (.clause hinline hopens (hbody s rfl))

theorem exceptHead_opens
    (p : Option String) (h : Identifiers p.toList) :
    Inline (exceptHead p) ∧ opensSuite (exceptHead p).toList = true := by
  cases p with
  | none => exact ⟨⟨by decide, by decide⟩, by decide⟩
  | some param =>
      have hexcept : Opening "except BaseException as " := ⟨by decide, by decide⟩
      have hparam := (phrase_of_isIdentifier (h param (List.mem_singleton.mpr rfl))).oneLine
      exact ⟨((hexcept.append hparam).append (by decide)).inline, opensSuite_append _ (by decide)⟩

theorem statements_else
    {d : Nat} {body : List Line} (h : Suite (d + 1) body) : Statements d (⟨d, "else:"⟩ :: body) :=
  .inr (.clause ⟨by decide, by decide⟩ (by decide) h)

mutual

/-- The lines of a statement form a suite when its initialisers are put in front. -/
theorem suite_stmt :
    (s : Stmt) → (d : Nat) → Identifiers s.words → Suite d (stmt d s.hoistInits)
  | .expr e, d, h => by
      rw [Stmt.words] at h
      exact .phrase (phrase_expr e h)
  | .declare x none m, d, h => by
      rw [Stmt.words, identifiers_cons] at h
      exact .phrase ((phrase_of_isIdentifier h.1).close (by decide) (by decide))
  | .declare x (some e) m, d, h => by
      rw [Stmt.words, identifiers_cons] at h
      exact .phrase (((phrase_of_isIdentifier h.1).append (by decide)).phrase (phrase_expr e h.2))
  | .destructure p i, d, h => by
      rw [Stmt.words, identifiers_append] at h
      exact .phrase (((phrase_display p h.1).append (by decide)).phrase (phrase_expr i h.2))
  | .block b, d, h => by
      rw [Stmt.words] at h
      rw [Stmt.hoistInits, stmt]
      exact suite_suite b d h
  | .ifElse t c a, d, h => by
      rw [Stmt.words, identifiers_append, identifiers_append] at h
      obtain ⟨⟨ht, hc⟩, ha⟩ := h
      have hif : Opening "if " := ⟨by decide, by decide⟩
      have hbranch : Suite d (⟨d, "if " ++ expr t ++ ":"⟩ :: stmt (d + 1) c.hoistInits) :=
        .head (hif.append (phrase_expr t ht).oneLine) (by decide) (by decide)
          (suite_stmt c (d + 1) hc)
      rw [Stmt.hoistInits, stmt]
      exact hbranch.append_statements (statements_elseBranch a d ha)
  | .whileLoop t b, d, h => by
      rw [Stmt.words, identifiers_append] at h
      have hwhile : Opening "while " := ⟨by decide, by decide⟩
      rw [Stmt.hoistInits, stmt]
      exact .head (hwhile.append (phrase_expr t h.1).oneLine) (by decide) (by decide)
        (suite_stmt b (d + 1) h.2)
  | .forLoop none t u b, d, h => by
      rw [Stmt.words, identifiers_append, identifiers_append, identifiers_append] at h
      obtain ⟨⟨⟨-, ht⟩, hu⟩, hb⟩ := h
      rw [Stmt.hoistInits]
      exact suite_forLoop ht hu (suite_stmt b (d + 1) hb)
  | .forLoop (some i) t u b, d, h => by
      rw [Stmt.words, identifiers_append, identifiers_append, identifiers_append] at h
      obtain ⟨⟨⟨hi, ht⟩, hu⟩, hb⟩ := h
      rw [Stmt.hoistInits, stmt, suite, stmts, stmts, List.append_nil]
      exact (suite_stmt i d hi).append (suite_forLoop ht hu (suite_stmt b (d + 1) hb))
  | .forEach x i b, d, h => by
      rw [Stmt.words, identifiers_append, identifiers_cons] at h
      obtain ⟨⟨hx, hi⟩, hb⟩ := h
      have hfor : Opening "for " := ⟨by decide, by decide⟩
      rw [Stmt.hoistInits, stmt]
      exact .head (((hfor.append (phrase_of_isIdentifier hx).oneLine).append (by decide)).append
        (phrase_expr i hi).oneLine) (by decide) (by decide) (suite_stmt b (d + 1) hb)
  | .ret none, d, h => .phrase ⟨⟨by decide, by decide⟩, by decide⟩
  | .ret (some e), d, h => by
      rw [Stmt.words] at h
      have hreturn : Opening "return " := ⟨by decide, by decide⟩
      exact .phrase (hreturn.phrase (phrase_expr e h))
  | .breakLoop, d, h => .phrase ⟨⟨by decide, by decide⟩, by decide⟩
  | .continueLoop, d, h => .phrase ⟨⟨by decide, by decide⟩, by decide⟩
  | .throw e, d, h => by
      rw [Stmt.words] at h
      have hraise : Opening "raise " := ⟨by decide, by decide⟩
      exact .phrase (hraise.phrase (phrase_expr e h))
  | .tryCatch b p c f, d, h => by
      rw [Stmt.words, identifiers_append, identifiers_append, identifiers_append] at h
      obtain ⟨⟨⟨hb, hp⟩, hc⟩, hf⟩ := h
      obtain ⟨hinline, hopens⟩ := exceptHead_opens p hp
      have htry : Suite d (⟨d, "try:"⟩ :: stmt (d + 1) b.hoistInits) :=
        .clause ⟨by decide, by decide⟩ (by decide) (suite_stmt b (d + 1) hb)
      have hhandler := statements_clauseLines hinline hopens (suite_option c (d + 1) hc)
      have hfinally : Inline "finally:" := ⟨by decide, by decide⟩
      have hfinalizer := statements_clauseLines hfinally (by decide) (suite_option f (d + 1) hf)
      rw [Stmt.hoistInits, stmt_tryCatch]
      exact htry.append_statements (hhandler.append hfinalizer)
  | .function ⟨name, params, body, isAsync⟩, d, h => by
      rw [Stmt.words, Func.words, identifiers_append, identifiers_append] at h
      obtain ⟨⟨hname, hparams⟩, hbody⟩ := h
      have hshown : OneLine (if name.isEmpty then "_anonymous" else name) := by
        split
        · decide
        · rename_i hnamed
          rw [if_neg hnamed] at hname
          exact hname.oneLine name (List.mem_singleton.mpr rfl)
      have hparams := oneLine_commaSeparated hparams.oneLine
      rw [Stmt.hoistInits, stmt]
      exact .head ((((opening_def isAsync).append hshown).append (by decide)).append hparams)
        (by decide) (by decide) (suite_suite body (d + 1) hbody)
  | .holding ⟨items, body, isAsync⟩, d, h => by
      rw [Stmt.words, Scoped.words, identifiers_append] at h
      have hitems := oneLine_commaSeparated (oneLine_items items h.1)
      rw [Stmt.hoistInits, stmt]
      exact .head ((opening_with isAsync).append hitems) (by decide) (by decide)
        (suite_suite body (d + 1) h.2)

theorem suite_suite :
    (ss : List Stmt) → (d : Nat) → Identifiers (Stmt.wordsList ss) →
      Suite d (suite d (Stmt.hoistInitsList ss))
  | [], d, _ => .phrase ⟨⟨by decide, by decide⟩, by decide⟩
  | s :: ss, d, h => by
      rw [Stmt.wordsList, identifiers_append] at h
      rw [Stmt.hoistInitsList, suite]
      exact (suite_stmt s d h.1).append_statements (statements_stmts ss d h.2)

theorem statements_stmts :
    (ss : List Stmt) → (d : Nat) → Identifiers (Stmt.wordsList ss) →
      Statements d (stmts d (Stmt.hoistInitsList ss))
  | [], d, _ => by
      rw [Stmt.hoistInitsList, stmts]
      exact .inl rfl
  | s :: ss, d, h => by
      rw [Stmt.wordsList, identifiers_append] at h
      rw [Stmt.hoistInitsList, stmts]
      exact .inr ((suite_stmt s d h.1).append_statements (statements_stmts ss d h.2))

theorem suite_option :
    (s : Option Stmt) → (d : Nat) → Identifiers (Stmt.wordsOption s) →
      ∀ body ∈ Stmt.hoistInitsOption s, Suite d (stmt d body)
  | none, d, _ => nofun
  | some s, d, h => by
      rw [Stmt.wordsOption] at h
      rintro body ⟨⟩
      exact suite_stmt s d h

theorem statements_elseBranch :
    (a : Option Stmt) → (d : Nat) → Identifiers (Stmt.wordsOption a) →
      Statements d (elseBranch d (Stmt.hoistInitsOption a))
  | none, d, _ => .inl rfl
  | some (.ifElse t c a), d, h => by
      rw [Stmt.wordsOption, Stmt.words, identifiers_append, identifiers_append] at h
      obtain ⟨⟨ht, hc⟩, ha⟩ := h
      have helif : Opening "elif " := ⟨by decide, by decide⟩
      have hbranch : Suite d (⟨d, "elif " ++ expr t ++ ":"⟩ :: stmt (d + 1) c.hoistInits) :=
        .head (helif.append (phrase_expr t ht).oneLine) (by decide) (by decide)
          (suite_stmt c (d + 1) hc)
      rw [Stmt.hoistInitsOption, Stmt.hoistInits, elseBranch]
      exact .inr (hbranch.append_statements (statements_elseBranch a d ha))
  | some (.expr _), d, h | some (.declare ..), d, h | some (.destructure ..), d, h
  | some (.block _), d, h | some (.whileLoop ..), d, h | some (.forLoop none ..), d, h
  | some (.forLoop (some _) ..), d, h | some (.forEach ..), d, h | some (.ret _), d, h
  | some .breakLoop, d, h | some .continueLoop, d, h | some (.throw _), d, h
  | some (.tryCatch ..), d, h | some (.function ⟨_, _, _, _⟩), d, h
  | some (.holding ⟨_, _, _⟩), d, h => statements_else (suite_stmt _ (d + 1) h)

end

/-! ## Lines that stand too deep -/

/-- The same lines up to their depths, and `moved` says whether any of them is deeper. -/
structure Deepened (moved : Bool) (own lines : List Line) : Prop where
  rows : List.Forall₂ (fun line line' => line'.text = line.text ∧ line.depth ≤ line'.depth)
    own lines
  eq_iff : own = lines ↔ moved = false

namespace Deepened

variable {moved moved' : Bool} {own own' lines lines' : List Line}

theorem refl (lines : List Line) : Deepened false lines lines :=
  ⟨List.forall₂_same.mpr fun _ _ => ⟨rfl, Nat.le_refl _⟩, by simp⟩

theorem cons (line : Line) (h : Deepened moved own lines) :
    Deepened moved (line :: own) (line :: lines) :=
  ⟨.cons ⟨rfl, Nat.le_refl _⟩ h.rows, by rw [List.cons_inj_right, h.eq_iff]⟩

theorem append
    (h : Deepened moved own lines) (h' : Deepened moved' own' lines') :
    Deepened (moved || moved') (own ++ own') (lines ++ lines') := by
  refine ⟨List.rel_append h.rows h'.rows, ?_⟩
  rw [Bool.or_eq_false_iff, ← h.eq_iff, ← h'.eq_iff]
  exact List.append_eq_append_iff_of_size_eq_left h.rows.length_eq

/-- The first line moves, unless it is moved by nothing. -/
theorem deepenFirst
    (d : Nat) (h : Deepened moved own lines) (hne : own ≠ []) :
    Deepened (d != 0 || moved) own (deepenFirst d lines) := by
  obtain ⟨hrows, heq⟩ := h
  cases hrows with
  | nil => exact absurd rfl hne
  | @cons line line' rest rest' hline hrest =>
      refine ⟨.cons ⟨hline.1, Nat.le_add_right_of_le hline.2⟩ hrest, ?_⟩
      cases d with
      | zero => exact heq
      | succ d =>
          constructor
          · intro hmoved
            have hdepth : line.depth = line'.depth + (d + 1) :=
              congrArg Line.depth (List.cons.inj hmoved).1
            have hdepths := hline.2
            omega
          · exact fun hfalse => nomatch hfalse

end Deepened

mutual

/-- A statement has the lines that it has with its initialisers put in front, and some of them
are deeper just if an initialised loop stands in a suite. -/
theorem deepened_stmt :
    (s : Stmt) → (d : Nat) →
      Deepened (s.hasInitInside (d != 0)) (stmt d s.hoistInits) (stmt d s)
  | .expr _, d | .declare .., d | .destructure .., d | .ret _, d | .breakLoop, d
  | .continueLoop, d | .throw _, d => .refl _
  | .block b, d => by
      rw [Stmt.hoistInits, stmt, stmt]
      exact deepened_suite b d
  | .ifElse t c a, d => by
      rw [Stmt.hoistInits, stmt, stmt]
      exact ((deepened_stmt c (d + 1)).cons _).append (deepened_elseBranch a d)
  | .whileLoop t b, d => by
      rw [Stmt.hoistInits, stmt, stmt]
      exact (deepened_stmt b (d + 1)).cons _
  | .forLoop none t u b, d => by
      have hsuite := (deepened_stmt b (d + 1)).append (.refl (updateLines (d + 1) u))
      rw [Bool.or_false] at hsuite
      rw [Stmt.hoistInits, stmt_forLoop, stmt_forLoop]
      exact hsuite.cons _
  | .forLoop (some i) t u b, d => by
      have hsuite := (deepened_stmt b (d + 1)).append (.refl (updateLines (d + 1) u))
      have hinit := (deepened_stmt i d).deepenFirst d (stmt_ne_nil d _)
      rw [Bool.or_false] at hsuite
      rw [Stmt.hoistInits, Stmt.hasInitInside, ← Bool.or_assoc, stmt, suite, stmts, stmts,
        List.append_nil, stmt_forLoop, stmt_forLoop]
      exact hinit.append (hsuite.cons _)
  | .forEach x i b, d => by
      rw [Stmt.hoistInits, stmt, stmt]
      exact (deepened_stmt b (d + 1)).cons _
  | .tryCatch b p c f, d => by
      have hclauses := (deepened_clauseLines c d (exceptHead p)).append
        (deepened_clauseLines f d "finally:")
      rw [Stmt.hoistInits, stmt_tryCatch, stmt_tryCatch]
      exact ((deepened_stmt b (d + 1)).append hclauses).cons _
  | .function ⟨name, params, body, isAsync⟩, d => by
      rw [Stmt.hoistInits, stmt, stmt]
      exact (deepened_suite body (d + 1)).cons _
  | .holding ⟨items, body, isAsync⟩, d => by
      rw [Stmt.hoistInits, stmt, stmt]
      exact (deepened_suite body (d + 1)).cons _

theorem deepened_suite :
    (ss : List Stmt) → (d : Nat) →
      Deepened (Stmt.hasInitInsideList (d != 0) ss) (suite d (Stmt.hoistInitsList ss)) (suite d ss)
  | [], d => .refl _
  | s :: ss, d => by
      rw [Stmt.hoistInitsList, suite, suite]
      exact (deepened_stmt s d).append (deepened_stmts ss d)

theorem deepened_stmts :
    (ss : List Stmt) → (d : Nat) →
      Deepened (Stmt.hasInitInsideList (d != 0) ss) (stmts d (Stmt.hoistInitsList ss)) (stmts d ss)
  | [], d => by
      rw [Stmt.hoistInitsList, stmts]
      exact .refl _
  | s :: ss, d => by
      rw [Stmt.hoistInitsList, stmts, stmts]
      exact (deepened_stmt s d).append (deepened_stmts ss d)

theorem deepened_clauseLines :
    (s : Option Stmt) → (d : Nat) → (head : String) →
      Deepened (Stmt.hasInitInsideOption true s) (clauseLines d head (Stmt.hoistInitsOption s))
        (clauseLines d head s)
  | none, _, _ => .refl _
  | some s, d, _ => (deepened_stmt s (d + 1)).cons _

theorem deepened_elseBranch :
    (a : Option Stmt) → (d : Nat) →
      Deepened (Stmt.hasInitInsideOption true a) (elseBranch d (Stmt.hoistInitsOption a))
        (elseBranch d a)
  | none, d => .refl _
  | some (.ifElse t c a), d => by
      rw [Stmt.hoistInitsOption, Stmt.hoistInits, elseBranch, elseBranch]
      exact ((deepened_stmt c (d + 1)).cons _).append (deepened_elseBranch a d)
  | some (.expr _), d | some (.declare ..), d | some (.destructure ..), d
  | some (.block _), d | some (.whileLoop ..), d | some (.forLoop none ..), d
  | some (.forLoop (some _) ..), d | some (.forEach ..), d | some (.ret _), d
  | some .breakLoop, d | some .continueLoop, d | some (.throw _), d
  | some (.tryCatch ..), d | some (.function ⟨_, _, _, _⟩), d
  | some (.holding ⟨_, _, _⟩), d => (deepened_stmt _ (d + 1)).cons _

end

/-- A text whose lines are deeper is longer. -/
theorem Deepened.renderLines_eq_iff
    {moved : Bool} {own lines : List Line} {w : Nat} (h : Deepened moved own lines) (hw : 1 ≤ w) :
    renderLines w lines = renderLines w own ↔ moved = false := by
  let size (lines : List Line) : Nat := (renderLines w lines).toList.length
  have hsize (line : Line) (lines : List Line) :
      size (line :: lines) = line.depth * w + line.text.toList.length + (size lines + 1) := by
    simp [size, toList_renderLines_cons, Nat.add_assoc]
  have hlonger : size own ≤ size lines ∧ (size lines = size own → own = lines) := by
    have hrows := h.rows
    clear h
    induction hrows with
    | nil => exact ⟨Nat.le_refl _, fun _ => rfl⟩
    | @cons line line' rest rest' hline _ ih =>
        obtain ⟨htext, hdepth⟩ := hline
        have hindent : line.depth * w ≤ line'.depth * w := Nat.mul_le_mul_right w hdepth
        rw [hsize, hsize, htext]
        refine ⟨by omega, fun heq => ?_⟩
        have hsame : line.depth = line'.depth := by
          have hproduct : line.depth * w = line'.depth * w := by omega
          exact Nat.eq_of_mul_eq_mul_right hw hproduct
        have hlines : line = line' := by
          cases line
          cases line'
          cases htext
          cases hsame
          rfl
        rw [hlines, ih.2 (by omega)]
  rw [← h.eq_iff]
  refine ⟨fun htext => hlonger.2 (congrArg (fun text => text.toList.length) htext), ?_⟩
  exact fun heq => by rw [heq]

/-! ## Programs -/

/-- With its initialisers put in front of their loops, every program is well indented.  The
program itself has the same lines, of which some are deeper just if an initialised loop stands
in a suite; otherwise it is well indented. -/
theorem write_wellIndented
    (p : Program) (w : Nat) (hwords : Identifiers p.words) :
    WellIndented w (write p.hoistInits w) ∧
      List.Forall₂ (fun line line' => line'.text = line.text ∧ line.depth ≤ line'.depth)
        (lines p.hoistInits) (lines p) ∧
      (1 ≤ w → (write p w = write p.hoistInits w ↔ p.hasInitInside = false)) ∧
      (p.hasInitInside = false → WellIndented w (write p w)) := by
  have hlines : Deepened p.hasInitInside (lines p.hoistInits) (lines p) := deepened_stmts p.body 0
  have hindented : WellIndented w (write p.hoistInits w) := by
    rw [write_eq_renderLines]
    exact (statements_stmts p.body 0 hwords).wellIndented w
  refine ⟨hindented, hlines.rows, fun hw => ?_, fun hinside => ?_⟩
  · rw [write_eq_renderLines, write_eq_renderLines]
    exact hlines.renderLines_eq_iff hw
  · rw [write_eq_renderLines] at hindented ⊢
    rwa [← hlines.eq_iff.mpr hinside]

/-- A counting loop with an initialiser in which a conditional stands. -/
theorem write_wellIndented_of_counting :
    let step : Expr := .assign (.ident "i") (.binary (.ident "i") .add (.ident "n"))
    let body : Stmt :=
      .block [.ifElse (.ident "done") .breakLoop (some (.expr step)), .continueLoop]
    let p : Program := ⟨[.forLoop (some (.declare "i" none true)) none (some step) body]⟩
    p.hasInitInside = false ∧ WellIndented 4 (write p 4) := by
  intro step body p
  have hwords : Identifiers p.words := by
    unfold Identifiers
    decide +kernel
  exact ⟨rfl, (write_wellIndented p 4 hwords).2.2.2 rfl⟩

/-- An initialised loop that is the suite of a conditional. -/
def nestedInit : Program :=
  ⟨[.ifElse (.ident "ready")
    (.forLoop (some (.declare "i" (some (.number (.ofNat 0))) true)) none none (.block [])) none]⟩

/-- The initialiser behind the head of the conditional is indented by two steps. -/
theorem write_not_wellIndented_of_nestedInit :
    Identifiers nestedInit.words ∧ ¬WellIndented 4 (write nestedInit 4) := by
  constructor
  · unfold Identifiers
    decide +kernel
  · intro h
    have hsteps := h.steps
    rw [write_eq_renderLines] at hsteps
    revert hsteps
    decide +kernel

end Python

end Bracket
