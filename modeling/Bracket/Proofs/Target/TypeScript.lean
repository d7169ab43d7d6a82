import Bracket.Proofs.Text.Writes
import Bracket.Target.Writer.TypeScript

/-!
# The writer for TypeScript writes documents

What the writer puts behind the text before is the text of the document of an expression
or a statement, at every width and level.  Statements on lines of their own write the
lines of their document: the line feeds that the document has before each line stand
behind it in the text.
-/

namespace Bracket

namespace TypeScript

open Text (Doc Writing)
open Text.Writing (push writeIndent writeLine deeper atMargin Puts)

/-- At level `d` the writer continues the line with a document. -/
def PutsDoc (d : Nat) (doc : Doc) (m : Writing Unit) : Prop :=
  Puts d (fun w => doc.render w) m

/-- At level `d` the writer writes the lines of a document. -/
structure PutsLines (d : Nat) (doc : Doc) (m : Writing Unit) : Prop where
  opens : doc.OpensLines
  puts : Puts d (fun w => doc.close w) m

namespace PutsDoc

variable {d : Nat} {a b : Doc} {m k : Writing Unit}

theorem congr (h : PutsDoc d a m) (heq : a = b) : PutsDoc d b m := heq ▸ h

theorem nil : PutsDoc d [] (pure ()) := Puts.pure

theorem push (text : String) : PutsDoc d [.text text] (push text) :=
  (Puts.push text).congr fun w => by simp

theorem bind
    (hm : PutsDoc d a m) (hk : PutsDoc d b k) : PutsDoc d (a ++ b) (m >>= fun _ => k) :=
  (Puts.bind hm hk).congr fun w => by simp

theorem text
    (text : String) (hk : PutsDoc d a k) :
    PutsDoc d (.text text :: a) (Text.Writing.push text >>= fun _ => k) :=
  (push text).bind hk

/-- The line feed behind the opening brace stands before the first line, and the one
behind the last line before the closing brace. -/
theorem braces (h : PutsLines (d + 1) a m) : PutsDoc d (braces d a) (writeBraces m) := by
  have hlines : Puts d (fun w => a.close w) (deeper m) := h.puts.deeper
  refine ((Puts.push "\x7b\n").bind
    (hlines.bind (Puts.writeIndent.bind (Puts.push "\x7d")))).congr fun w => ?_
  simp [TypeScript.braces, h.opens.render_newline]

theorem groupedIf
    (loose : Bool) (h : PutsDoc d a m) :
    PutsDoc d (groupedIf loose a) (writeGroupedIf loose m) := by
  cases loose with
  | false => exact h
  | true => exact (push "(").bind (h.bind (push ")"))

/-- At the margin the indentation before a conditional is empty. -/
theorem elseIf
    (h : PutsDoc 0 (.text "if (" :: a) m) :
    PutsDoc d (.text " else if (" :: a)
      (Text.Writing.push " else " >>= fun _ => atMargin (writeIndent >>= fun _ => m)) := by
  have hmargin : PutsDoc 0 (.text "if (" :: a) (writeIndent >>= fun _ => m) :=
    (Puts.writeIndent.bind h).congr fun w => by simp
  have hhead : " else if (".toList = " else ".toList ++ "if (".toList := rfl
  refine ((Puts.push " else ").bind (Puts.atMargin hmargin)).congr fun w => ?_
  rw [Doc.render_text, Doc.render_text, hhead, List.append_assoc]

end PutsDoc

namespace PutsLines

variable {d : Nat} {a b : Doc} {m k : Writing Unit}

theorem nil : PutsLines d [] (pure ()) :=
  ⟨.nil, Puts.pure.congr fun w => by simp⟩

theorem append
    (hm : PutsLines d a m) (hk : PutsLines d b k) : PutsLines d (a ++ b) (m >>= fun _ => k) :=
  ⟨hm.opens.append hk.opens,
    (hm.puts.bind hk.puts).congr fun w => (hm.opens.close_append hk.opens w).symm⟩

theorem line (h : PutsDoc d a m) : PutsLines d (.lineBreak d :: a) (writeLine m) :=
  ⟨.cons d a, (Puts.writeLine h).congr fun w => by simp⟩

end PutsLines

theorem PutsDoc.enclosed
    {body : Nat → Doc} {m : Writing Unit} (block : Bool) (h : ∀ d, PutsDoc d (body d) m)
    (d : Nat) : PutsDoc d (enclosed d block body) (writeEnclosed block m) := by
  cases block with
  | true => exact h d
  | false => exact .braces (.line (h (d + 1)))

/-- A clause of a statement that catches exceptions. -/
def clauseDoc (d : Nat) (head : String) : Option Stmt → Doc
  | none => []
  | some s => .text head :: enclosed d (isBlock s) (fun d => stmt d s)

theorem stmt_tryCatch
    (d : Nat) (b : Stmt) (p : Option String) (c f : Option Stmt) :
    stmt d (.tryCatch b p c f) =
      .text "try " :: (enclosed d (isBlock b) (fun d => stmt d b) ++
        (clauseDoc d (catchHead p) c ++ clauseDoc d " finally " f)) := by
  cases p <;> cases c <;> cases f <;> simp [stmt, clauseDoc, catchHead]

theorem PutsDoc.member
    {d : Nat} {o p : Expr} (computed : Bool) (ho : PutsDoc d (expr d o) (writeExpr o))
    (hp : PutsDoc d (expr d p) (writeExpr p)) :
    PutsDoc d (expr d (.member o p computed)) (writeExpr (.member o p computed)) := by
  by_cases hname : computed = false ∧ ∃ s, p = .literal (.string s)
  · obtain ⟨rfl, s, rfl⟩ := hname
    rw [expr, writeExpr]
    exact ho.bind (.push _)
  · have hother (s : String) (hs : p = .literal (.string s)) (hc : computed = false) : False :=
      hname ⟨hc, s, hs⟩
    rw [expr, writeExpr]
    · exact (ho.bind (.text "[" (hp.bind (.push "]")))).congr (by simp)
    · exact hother
    · exact hother

theorem PutsDoc.function
    {d : Nat} (name : String) (params : List String) {body : List Stmt} (isAsync : Bool)
    (hreturned : ∀ e, body = [.ret (some e)] → PutsDoc d (expr d e) (writeExpr e))
    (hbody : PutsLines (d + 1) (stmts (d + 1) body) (writeStmts body)) :
    PutsDoc d (expr d (.function ⟨name, params, body, isAsync⟩))
      (writeExpr (.function ⟨name, params, body, isAsync⟩)) := by
  by_cases harrow : name = "" ∧ ∃ e, body = [.ret (some e)]
  · obtain ⟨rfl, e, rfl⟩ := harrow
    rw [expr, writeExpr]
    exact .text _ (hreturned e rfl)
  · have hother (e : Expr) (hname : name = "") (he : body = [.ret (some e)]) : False :=
      harrow ⟨hname, e, he⟩
    rw [expr, writeExpr]
    · exact .text _ (.braces hbody)
    · exact hother
    · exact hother

mutual

/-- An expression writes its document. -/
theorem writeExpr_puts : (e : Expr) → (d : Nat) → PutsDoc d (expr d e) (writeExpr e)
  | .literal l, d => by
      rw [expr, writeExpr]
      exact .push _
  | .ident x, d => by
      rw [expr, writeExpr]
      exact .push _
  | .binary l op r, d => by
      have hl := writeExpr_puts l d
      have hr := writeExpr_puts r d
      rw [expr, writeExpr]
      exact PutsDoc.congr (.text _ (hl.bind (.text _ (hr.bind (.push _))))) (by simp)
  | .unary op e, d => by
      rw [expr, writeExpr]
      exact .text _ (writeExpr_puts e d)
  | .call f args, d => by
      have hf := writeExpr_puts f d
      have hargs := writeExprs_puts args d
      rw [expr, writeExpr]
      exact (hf.bind (.text _ (hargs.bind (.push _)))).congr (by simp)
  | .methodCall r m args, d => by
      have hr := (writeExpr_puts r d).groupedIf (isLooseReceiver r)
      have hargs := writeExprs_puts args d
      rw [expr, writeExpr]
      exact (hr.bind (.text _ (hargs.bind (.push _)))).congr (by simp)
  | .member o p computed, d => .member computed (writeExpr_puts o d) (writeExpr_puts p d)
  | .array es, d => by
      rw [expr, writeExpr]
      exact .text _ ((writeExprs_puts es d).bind (.push _))
  | .object ps, d => by
      rw [expr, writeExpr]
      exact .text _ ((writePairs_puts ps d).bind (.push _))
  | .function ⟨name, params, body, isAsync⟩, d =>
      .function name params isAsync (writeReturned_puts body d) (writeStmts_puts body (d + 1))
  | .conditional t c a, d => by
      have ht := writeExpr_puts t d
      have hc := writeExpr_puts c d
      have ha := writeExpr_puts a d
      rw [expr, writeExpr]
      exact PutsDoc.congr
        (.text _ (ht.bind (.text _ (hc.bind (.text _ (ha.bind (.push _))))))) (by simp)
  | .assign t v, d => by
      rw [expr, writeExpr]
      exact (writeExpr_puts t d).bind (.text _ (writeExpr_puts v d))
  | .await e, d => by
      rw [expr, writeExpr]
      exact .text _ (writeExpr_puts e d)

/-- The expression of a body that only returns it. -/
theorem writeReturned_puts :
    (ss : List Stmt) → (d : Nat) → (e : Expr) → ss = [.ret (some e)] →
      PutsDoc d (expr d e) (writeExpr e)
  | [.ret (some e)], d, _, rfl => writeExpr_puts e d

theorem writeExprs_puts :
    (es : List Expr) → (d : Nat) → PutsDoc d (Doc.joinWith ", " (exprs d es)) (writeExprs es)
  | [], _ => .nil
  | [e], d => writeExpr_puts e d
  | e :: e' :: es, d => (writeExpr_puts e d).bind (.text ", " (writeExprs_puts (e' :: es) d))

theorem writePairs_puts :
    (ps : List (String × Expr)) → (d : Nat) →
      PutsDoc d (Doc.joinWith ", " (pairs d ps)) (writePairs ps)
  | [], _ => .nil
  | [(_, e)], d => .text _ (writeExpr_puts e d)
  | (_, e) :: (k, e') :: ps, d =>
      .text _ ((writeExpr_puts e d).bind (.text ", " (writePairs_puts ((k, e') :: ps) d)))

theorem writeInitializer_puts :
    (i : Option Expr) → (d : Nat) → PutsDoc d (initializer d i) (writeInitializer i)
  | none, _ => .nil
  | some e, d => .text " = " (writeExpr_puts e d)

theorem writeOptional_puts :
    (e : Option Expr) → (d : Nat) → PutsDoc d (optional d e) (writeOptional e)
  | none, _ => .nil
  | some e, d => writeExpr_puts e d

/-- A statement writes its document. -/
theorem writeStmt_puts : (s : Stmt) → (d : Nat) → PutsDoc d (stmt d s) (writeStmt s)
  | .expr e, d => by
      rw [stmt, writeStmt]
      exact (writeExpr_puts e d).bind (.push _)
  | .declare x i m, d => by
      rw [stmt, writeStmt]
      exact .text _ ((writeInitializer_puts i d).bind (.push _))
  | .destructure p i, d => by
      rw [stmt, writeStmt]
      exact .text _ ((writeExpr_puts i d).bind (.push _))
  | .block b, d => by
      rw [stmt, writeStmt]
      exact .braces (writeStmts_puts b (d + 1))
  | .ifElse t c a, d => by
      have ht := writeExpr_puts t d
      have hc := PutsDoc.enclosed (isBlock c) (writeStmt_puts c) d
      have ha := writeElse_puts a d
      rw [stmt, writeStmt]
      exact PutsDoc.congr (.text _ (ht.bind (.text _ (hc.bind ha)))) (by simp)
  | .whileLoop t b, d => by
      have ht := writeExpr_puts t d
      have hb := PutsDoc.enclosed (isBlock b) (writeStmt_puts b) d
      rw [stmt, writeStmt]
      exact .text _ (ht.bind (.text _ hb))
  | .forLoop i t u b, d => by
      have hi := writeForInit_puts i d
      have ht := writeOptional_puts t d
      have hu := writeOptional_puts u d
      have hb := PutsDoc.enclosed (isBlock b) (writeStmt_puts b) d
      rw [stmt, writeStmt]
      exact PutsDoc.congr
        (.text _ (hi.bind (.text _ (ht.bind (.text _ (hu.bind (.text _ hb))))))) (by simp)
  | .forEach x i b, d => by
      have hi := writeExpr_puts i d
      have hb := PutsDoc.enclosed (isBlock b) (writeStmt_puts b) d
      rw [stmt, writeStmt]
      exact .text _ (hi.bind (.text _ hb))
  | .ret none, d => by
      rw [stmt, writeStmt]
      exact .push _
  | .ret (some e), d => by
      rw [stmt, writeStmt]
      exact .text _ ((writeExpr_puts e d).bind (.push _))
  | .breakLoop, d => by
      rw [stmt, writeStmt]
      exact .push _
  | .continueLoop, d => by
      rw [stmt, writeStmt]
      exact .push _
  | .throw e, d => by
      rw [stmt, writeStmt]
      exact .text _ ((writeExpr_puts e d).bind (.push _))
  | .tryCatch b p c f, d => by
      have hb := PutsDoc.enclosed (isBlock b) (writeStmt_puts b) d
      have hc := writeClause_puts (catchHead p) c d
      have hf := writeClause_puts " finally " f d
      rw [stmt_tryCatch, writeStmt]
      exact .text _ (hb.bind (hc.bind hf))
  | .function ⟨name, params, body, isAsync⟩, d => by
      rw [stmt, writeStmt]
      exact .text _ (.braces (writeStmts_puts body (d + 1)))
  | .holding s, d => by
      rw [stmt, writeStmt]
      exact .push _

theorem writeStmts_puts :
    (ss : List Stmt) → (d : Nat) → PutsLines d (stmts d ss) (writeStmts ss)
  | [], d => by
      rw [stmts, writeStmts]
      exact .nil
  | s :: ss, d => by
      rw [stmts, writeStmts]
      exact .append (.line (writeStmt_puts s d)) (writeStmts_puts ss d)

theorem writeClause_puts
    (head : String) :
    (s : Option Stmt) → (d : Nat) → PutsDoc d (clauseDoc d head s) (writeClause head s)
  | none, d => by
      rw [clauseDoc, writeClause]
      exact .nil
  | some s, d => by
      rw [clauseDoc, writeClause]
      exact .text _ (.enclosed (isBlock s) (writeStmt_puts s) d)

theorem writeElse_puts :
    (s : Option Stmt) → (d : Nat) → PutsDoc d (elseBranch d s) (writeElse s)
  | none, _ => .nil
  | some (.ifElse t c a), d => by
      have ht := writeExpr_puts t 0
      have hc := PutsDoc.enclosed (isBlock c) (writeStmt_puts c) 0
      have ha := writeElse_puts a 0
      rw [elseBranch, writeElse]
      exact PutsDoc.elseIf (PutsDoc.congr (.text _ (ht.bind (.text _ (hc.bind ha)))) (by simp))
  | some (.expr _), d | some (.declare ..), d | some (.destructure ..), d | some (.block _), d
  | some (.whileLoop ..), d | some (.forLoop ..), d | some (.forEach ..), d | some (.ret _), d
  | some .breakLoop, d | some .continueLoop, d | some (.throw _), d | some (.tryCatch ..), d
  | some (.function _), d | some (.holding _), d =>
      .text " else " (.enclosed _ (writeStmt_puts _) d)

theorem writeForInit_puts :
    (i : Option Stmt) → (d : Nat) → PutsDoc d (forInit d i) (writeForInit i)
  | some (.declare _ i _), d => .text _ (writeInitializer_puts i d)
  | some (.expr e), d => writeExpr_puts e d
  | none, _ | some (.destructure ..), _ | some (.block _), _ | some (.ifElse ..), _
  | some (.whileLoop ..), _ | some (.forLoop ..), _ | some (.forEach ..), _ | some (.ret _), _
  | some .breakLoop, _ | some .continueLoop, _ | some (.throw _), _ | some (.tryCatch ..), _
  | some (.function _), _ | some (.holding _), _ => .nil

end

/-- The text of a program is that of its lines. -/
theorem write_eq_renderLines
    (p : Program) (w : Nat) : write p w = Text.renderLines w (lines p) := by
  have hputs := (writeStmts_puts p.body 0).puts
  rw [write, hputs.textOf_eq, Doc.close, String.ofList_toList, lines]

end TypeScript

end Bracket
