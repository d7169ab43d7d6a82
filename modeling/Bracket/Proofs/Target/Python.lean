import Bracket.Proofs.Text.Writes
import Bracket.Target.Writer.Python

/-!
# The writer for Python writes lines

What the writer puts behind the text before is the text of the lines of a statement, at
every width.  A statement that takes its own indentation back leaves nothing of it, and a
compound statement takes back just the line feed that ends its suite.
-/

namespace Bracket

namespace Python

open Text (Line Writing renderLines toList_renderLines_cons toList_renderLines_append)
open Text.Writing (push writeIndent writeLine deeper dropIndent trimmed Puts)

/-- At level `d` the writer writes lines. -/
def PutsLines (d : Nat) (lines : List Line) (m : Writing Unit) : Prop :=
  Puts d (fun w => (renderLines w lines).toList) m

/-- Lines end with a line feed, if one stands before them. -/
theorem dropLast_newline_renderLines
    (w : Nat) (lines : List Line) :
    ('\n' :: (renderLines w lines).toList).dropLast ++ ['\n'] =
      '\n' :: (renderLines w lines).toList := by
  have hlast : ∃ text, '\n' :: (renderLines w lines).toList = text ++ ['\n'] := by
    induction lines with
    | nil => exact ⟨[], rfl⟩
    | cons line lines ih =>
        obtain ⟨text, htext⟩ := ih
        refine ⟨'\n' :: (List.replicate (line.depth * w) ' ' ++ line.text.toList ++ text), ?_⟩
        rw [toList_renderLines_cons, htext]
        simp
  obtain ⟨text, htext⟩ := hlast
  rw [htext, List.dropLast_concat]

namespace PutsLines

variable {d : Nat} {a b : List Line} {m k : Writing Unit} {pushed text : String}

theorem nil : PutsLines d [] (pure ()) := Puts.pure

theorem append
    (hm : PutsLines d a m) (hk : PutsLines d b k) : PutsLines d (a ++ b) (m >>= fun _ => k) :=
  (Puts.bind hm hk).congr fun w => (toList_renderLines_append w a b).symm

theorem deeper (h : PutsLines (d + 1) a m) : PutsLines d a (deeper m) := Puts.deeper h

/-- A simple statement on a line of its own. -/
theorem line (text : String) : PutsLines d [⟨d, text⟩] (writeLine (push text)) :=
  ((Puts.push text).writeLine).congr fun w => by
    rw [toList_renderLines_cons]
    rfl

/-- The rest of a line, and more lines. -/
theorem head
    (hpushed : pushed.toList = text.toList ++ ['\n']) (h : PutsLines d a m) :
    Puts d (fun w => text.toList ++ '\n' :: (renderLines w a).toList)
      (push pushed >>= fun _ => m) :=
  ((Puts.push pushed).bind h).congr fun w => by simp [hpushed]

/-- A clause of a compound statement. -/
theorem clause
    (hpushed : pushed.toList = text.toList ++ ['\n']) (h : PutsLines d a m) :
    PutsLines d (⟨d, text⟩ :: a) (writeIndent >>= fun _ => push pushed >>= fun _ => m) :=
  (Puts.writeIndent.bind (head hpushed h)).congr fun w => by simp [toList_renderLines_cons]

/-- The last line feed of a compound statement is taken back and written again. -/
theorem writeLine_trimmed
    {x : Nat → List Char} (h : Puts d (fun w => x w ++ '\n' :: (renderLines w a).toList) m) :
    Puts d (fun w => List.replicate (d * w) ' ' ++ x w ++ '\n' :: (renderLines w a).toList)
      (writeLine (trimmed m)) := by
  have hopen :
      Puts d (fun w => x w ++ ('\n' :: (renderLines w a).toList).dropLast) (trimmed m) := by
    refine Puts.trimmed (h.congr fun w => ?_)
    rw [List.append_assoc, dropLast_newline_renderLines]
  refine hopen.writeLine.congr fun w => ?_
  rw [← List.append_assoc, List.append_assoc, dropLast_newline_renderLines]

theorem compound
    (hpushed : pushed.toList = text.toList ++ ['\n']) (h : PutsLines d a m) :
    PutsLines d (⟨d, text⟩ :: a) (writeLine (trimmed (push pushed >>= fun _ => m))) :=
  (writeLine_trimmed (head hpushed h)).congr fun w =>
    (toList_renderLines_cons w ⟨d, text⟩ a).symm

/-- A compound statement whose own line is not the first one. -/
theorem loop
    {init : Writing Unit} {x : Nat → List Char} (hinit : Puts d x init)
    (hlines : ∀ w, List.replicate (d * w) ' ' ++ x w =
      (renderLines w b).toList ++ List.replicate (d * w) ' ')
    (hpushed : pushed.toList = text.toList ++ ['\n']) (h : PutsLines d a m) :
    PutsLines d (b ++ ⟨d, text⟩ :: a)
      (writeLine (trimmed (init >>= fun _ => push pushed >>= fun _ => m))) := by
  have hwhole :
      Puts d (fun w => (x w ++ text.toList) ++ '\n' :: (renderLines w a).toList)
        (init >>= fun _ => push pushed >>= fun _ => m) :=
    (hinit.bind (head hpushed h)).congr fun w => (List.append_assoc ..).symm
  refine (writeLine_trimmed hwhole).congr fun w => ?_
  rw [toList_renderLines_append, toList_renderLines_cons, ← List.append_assoc, hlines]
  simp only [List.append_assoc]

/-- A block writes its lines in the place of its own indentation. -/
theorem block
    (h : PutsLines d a m) (hne : a ≠ []) :
    PutsLines d a (writeIndent >>= fun _ => dropIndent >>= fun _ =>
      trimmed m >>= fun _ => push "\n") := by
  have hlast (w : Nat) :
      (renderLines w a).toList.dropLast ++ ['\n'] = (renderLines w a).toList := by
    cases a with
    | nil => exact absurd rfl hne
    | cons line rest =>
        rw [toList_renderLines_cons, List.dropLast_append_of_ne_nil (List.cons_ne_nil _ _),
          List.append_assoc, dropLast_newline_renderLines]
  have hopen : Puts d (fun w => (renderLines w a).toList.dropLast) (trimmed m) :=
    Puts.trimmed (h.congr fun w => (hlast w).symm)
  exact ((hopen.bind (Puts.push "\n")).congr hlast).dropIndent

end PutsLines

/-! ## Lines of statements with parts that may be missing -/

def initLines (d : Nat) : Option Stmt → List Line
  | none => []
  | some i => deepenFirst d (stmt d i)

def updateLines (d : Nat) : Option Expr → List Line
  | none => []
  | some u => [⟨d, expr u⟩]

def clauseLines (d : Nat) (head : String) : Option Stmt → List Line
  | none => []
  | some s => ⟨d, head⟩ :: stmt (d + 1) s

theorem stmt_forLoop
    (d : Nat) (i : Option Stmt) (t u : Option Expr) (b : Stmt) :
    stmt d (.forLoop i t u b) =
      initLines d i ++ ⟨d, "while " ++ loopTest t ++ ":"⟩ :: (stmt (d + 1) b
        ++ updateLines (d + 1) u) := by
  cases i <;> cases t <;> cases u <;> simp [stmt, initLines, updateLines, loopTest]

theorem stmt_tryCatch
    (d : Nat) (b : Stmt) (p : Option String) (c f : Option Stmt) :
    stmt d (.tryCatch b p c f) =
      ⟨d, "try:"⟩ :: (stmt (d + 1) b ++ (clauseLines d (exceptHead p) c
        ++ clauseLines d "finally:" f)) := by
  have hline : exceptLine d p = ⟨d, exceptHead p⟩ := by
    cases p <;> rfl
  cases c <;> cases f <;> simp [stmt, clauseLines, hline]

mutual

theorem stmt_ne_nil (d : Nat) : (s : Stmt) → stmt d s ≠ []
  | .block b => by
      rw [stmt]
      exact suite_ne_nil d b
  | .forLoop .. => by simp [stmt_forLoop]
  | .tryCatch .. => by simp [stmt_tryCatch]
  | .function ⟨_, _, _, _⟩ | .holding ⟨_, _, _⟩ => by simp [stmt]
  | .declare _ none _ | .declare _ (some _) _ | .ret none | .ret (some _) => by simp [stmt]
  | .expr _ | .destructure .. | .ifElse .. | .whileLoop .. | .forEach .. | .breakLoop
  | .continueLoop | .throw _ => by simp [stmt]

theorem suite_ne_nil (d : Nat) : (ss : List Stmt) → suite d ss ≠ []
  | [] => by simp [suite]
  | s :: ss => by simp [suite, stmt_ne_nil d s]

end

/-- The initialisation of a loop stands behind the indentation of the loop. -/
theorem toList_renderLines_deepenFirst
    (w levels : Nat) {lines : List Line} (h : lines ≠ []) :
    (renderLines w (deepenFirst levels lines)).toList =
      List.replicate (levels * w) ' ' ++ (renderLines w lines).toList := by
  cases lines with
  | nil => exact absurd rfl h
  | cons line lines =>
      have hspaces :
          List.replicate ((line.depth + levels) * w) ' ' =
            List.replicate (levels * w) ' ' ++ List.replicate (line.depth * w) ' ' := by
        rw [List.replicate_append_replicate, Nat.add_comm line.depth, Nat.add_mul]
      rw [deepenFirst, toList_renderLines_cons, toList_renderLines_cons, Line.deepen, hspaces]
      simp only [List.append_assoc]

/-! ## The writer -/

theorem writeUpdate_puts
    (d : Nat) (u : Option Expr) : PutsLines d (updateLines d u) (writeUpdate u) := by
  cases u with
  | none => exact .nil
  | some u => exact .line (expr u)

/-- A statement that is no block is written alike in all places. -/
theorem PutsLines.of_line
    {d : Nat} {lines : List Line} {s : Stmt} (hs : isBlock s = false) (asBody : Bool)
    (h : PutsLines d lines (writeLine (writeStmt false s))) :
    PutsLines d lines (writeBody (asBody && isBlock s) (fun bare => writeStmt bare s)) := by
  rw [hs, Bool.and_false]
  exact h

/-- A simple statement is one line. -/
theorem PutsLines.of_text
    {d : Nat} {text : String} {s : Stmt} (hs : isBlock s = false) (hstmt : stmt d s = [⟨d, text⟩])
    (hwrite : writeStmt false s = push text) (asBody : Bool) :
    PutsLines d (stmt d s) (writeBody (asBody && isBlock s) (fun bare => writeStmt bare s)) := by
  refine .of_line hs asBody ?_
  rw [hstmt, hwrite]
  exact .line text

mutual

/-- A statement writes its lines, on lines of its own and in the place of a body. -/
theorem writeStmt_puts
    (asBody : Bool) :
    (s : Stmt) → (d : Nat) →
      PutsLines d (stmt d s) (writeBody (asBody && isBlock s) (fun bare => writeStmt bare s))
  | .expr e, d => .of_text rfl rfl rfl asBody
  | .declare x none m, d => .of_text rfl rfl rfl asBody
  | .declare x (some e) m, d => .of_text rfl rfl rfl asBody
  | .destructure p i, d => .of_text rfl rfl rfl asBody
  | .block b, d => by
      have hsuite := writeSuite_puts b d
      rw [stmt]
      cases asBody with
      | true =>
          have hbody : writeBody (true && isBlock (.block b))
              (fun bare => writeStmt bare (.block b)) = writeSuite b := by
            simp [writeBody, isBlock, writeStmt]
          rw [hbody]
          exact hsuite
      | false =>
          have hline : writeBody (false && isBlock (.block b))
              (fun bare => writeStmt bare (.block b)) =
                writeIndent >>= fun _ => dropIndent >>= fun _ =>
                  trimmed (writeSuite b) >>= fun _ => push "\n" := by
            simp [writeBody, writeLine, writeStmt]
          rw [hline]
          exact .block hsuite (suite_ne_nil d b)
  | .ifElse t c a, d => by
      have hbranches := (writeStmt_puts true c (d + 1)).deeper.append (writeElse_puts a d)
      refine .of_line rfl asBody ?_
      rw [stmt, writeStmt]
      exact .compound (by simp) hbranches
  | .whileLoop t b, d => by
      have hbody := (writeStmt_puts true b (d + 1)).deeper
      refine .of_line rfl asBody ?_
      rw [stmt, writeStmt]
      exact .compound (by simp) hbody
  | .forLoop i t u b, d => by
      have hbody := ((writeStmt_puts true b (d + 1)).append (writeUpdate_puts (d + 1) u)).deeper
      refine .of_line rfl asBody ?_
      obtain ⟨x, hinit, hlines⟩ := writeForInit_puts i d
      rw [stmt_forLoop, writeStmt]
      exact .loop hinit hlines (by simp) hbody
  | .forEach x i b, d => by
      have hbody := (writeStmt_puts true b (d + 1)).deeper
      refine .of_line rfl asBody ?_
      rw [stmt, writeStmt]
      exact .compound (by simp) hbody
  | .ret none, d => .of_text rfl rfl rfl asBody
  | .ret (some e), d => .of_text rfl rfl rfl asBody
  | .breakLoop, d => .of_text rfl rfl rfl asBody
  | .continueLoop, d => .of_text rfl rfl rfl asBody
  | .throw e, d => .of_text rfl rfl rfl asBody
  | .tryCatch b p c f, d => by
      have hhandler := writeClause_puts (exceptHead p) c d
      have hfinalizer := writeClause_puts "finally:" f d
      have hparts := (writeStmt_puts true b (d + 1)).deeper.append (hhandler.append hfinalizer)
      refine .of_line rfl asBody ?_
      rw [stmt_tryCatch, writeStmt]
      exact .compound (by simp) hparts
  | .function ⟨name, params, body, isAsync⟩, d => by
      have hbody := (writeSuite_puts body (d + 1)).deeper
      refine .of_line rfl asBody ?_
      rw [stmt, writeStmt]
      exact .compound (by simp) hbody
  | .holding ⟨items, body, isAsync⟩, d => by
      have hbody := (writeSuite_puts body (d + 1)).deeper
      refine .of_line rfl asBody ?_
      rw [stmt, writeStmt]
      exact .compound (by simp) hbody

theorem writeSuite_puts :
    (ss : List Stmt) → (d : Nat) → PutsLines d (suite d ss) (writeSuite ss)
  | [], d => by
      rw [suite, writeSuite]
      exact .line "pass"
  | s :: ss, d => by
      rw [suite, writeSuite]
      exact .append (writeStmt_puts false s d) (writeStmts_puts ss d)

theorem writeStmts_puts :
    (ss : List Stmt) → (d : Nat) → PutsLines d (stmts d ss) (writeStmts ss)
  | [], d => by
      rw [stmts, writeStmts]
      exact .nil
  | s :: ss, d => by
      rw [stmts, writeStmts]
      exact .append (writeStmt_puts false s d) (writeStmts_puts ss d)

theorem writeForInit_puts :
    (i : Option Stmt) → (d : Nat) →
      ∃ x, Puts d x (writeForInit i) ∧
        ∀ w, List.replicate (d * w) ' ' ++ x w =
          (renderLines w (initLines d i)).toList ++ List.replicate (d * w) ' '
  | none, d => by
      refine ⟨fun _ => [], ?_, fun w => ?_⟩
      · rw [writeForInit]
        exact .pure
      · rw [List.append_nil]
        rfl
  | some i, d => by
      refine ⟨fun w => (renderLines w (stmt d i)).toList ++ List.replicate (d * w) ' ', ?_,
        fun w => ?_⟩
      · rw [writeForInit]
        exact Puts.bind (writeStmt_puts false i d) .writeIndent
      · rw [initLines, toList_renderLines_deepenFirst w d (stmt_ne_nil d i), List.append_assoc]

theorem writeClause_puts
    (head : String) :
    (s : Option Stmt) → (d : Nat) → PutsLines d (clauseLines d head s) (writeClause head s)
  | none, d => by
      rw [clauseLines, writeClause]
      exact .nil
  | some s, d => by
      rw [clauseLines, writeClause]
      exact .clause (by simp) (writeStmt_puts true s (d + 1)).deeper

theorem writeElse_puts :
    (s : Option Stmt) → (d : Nat) → PutsLines d (elseBranch d s) (writeElse s)
  | none, d => by
      rw [elseBranch, writeElse]
      exact .nil
  | some (.ifElse t c a), d => by
      have hbranches := (writeStmt_puts true c (d + 1)).deeper.append (writeElse_puts a d)
      rw [elseBranch, writeElse]
      exact .clause (by simp) hbranches
  | some (.expr _), d | some (.declare ..), d | some (.destructure ..), d | some (.block _), d
  | some (.whileLoop ..), d | some (.forLoop ..), d | some (.forEach ..), d | some (.ret _), d
  | some .breakLoop, d | some .continueLoop, d | some (.throw _), d | some (.tryCatch ..), d
  | some (.function _), d | some (.holding _), d =>
      .clause (show "else:\n".toList = "else:".toList ++ ['\n'] from rfl)
        (writeStmt_puts true _ (d + 1)).deeper

end

/-- The text of a program is that of its lines. -/
theorem write_eq_renderLines
    (p : Program) (w : Nat) : write p w = renderLines w (lines p) := by
  have hputs : Puts 0 (fun w => (renderLines w (lines p)).toList) (writeStmts p.body) :=
    writeStmts_puts p.body 0
  rw [write, hputs.textOf_eq, String.ofList_toList]

end Python

end Bracket
