import Bracket.Proofs.Text.Writes
import Bracket.Target.Writer.Lua

/-!
# The writer for Lua writes documents

What the writer puts behind the text before is the text of the document of an expression
or a statement, at every width and level, and it makes up the same local variables.  The
documents are the results of computations on the number of these variables, so the rules
compose such computations.

A statement on a line of its own writes the lines of its document.  Where a block stands
decides whether it opens a region, fills one, or continues the lines before it.
-/

namespace Bracket

namespace Lua

open Text (Doc Writing commaSeparated)
open Text.Writing (push writeIndent newline writeLine deeper freshLocal Writes)

/-- At level `d` the writer continues the line with the document of a printer. -/
def WritesDoc (d : Nat) (p : Printing Doc) (m : Writing Unit) : Prop :=
  Writes d (fun w => do
    let doc ← p
    pure (doc.render w)) m

/-- At level `d` the writer writes the lines of the document of a printer. -/
structure WritesLines (d : Nat) (p : Printing Doc) (m : Writing Unit) : Prop where
  opens : ∀ n, (p.run n).1.OpensLines
  writes : Writes d (fun w => do
    let doc ← p
    pure (doc.close w)) m

namespace WritesDoc

variable {d : Nat} {p q : Printing Doc} {m k : Writing Unit}

theorem congr (h : WritesDoc d p m) (heq : p = q) : WritesDoc d q m := heq ▸ h

theorem nil : WritesDoc d (pure []) (pure ()) := Writes.pure.congr fun w => by simp

theorem push (text : String) : WritesDoc d (pure [.text text]) (push text) :=
  (Writes.push text).congr fun w => by simp

theorem bind
    (hm : WritesDoc d p m) (hk : WritesDoc d q k) :
    WritesDoc d (do
      let x ← p
      let y ← q
      pure (x ++ y)) (m >>= fun _ => k) :=
  (Writes.bind hm hk).congr fun w => by simp

theorem text
    (text : String) (hk : WritesDoc d q k) :
    WritesDoc d (do
      let y ← q
      pure (.text text :: y)) (Text.Writing.push text >>= fun _ => k) :=
  ((push text).bind hk).congr (by simp)

theorem newline : WritesDoc d (pure [.lineBreak d]) newline :=
  Writes.newline.congr fun w => by simp

theorem deeper (h : WritesDoc (d + 1) p m) : WritesDoc d p (deeper m) := Writes.deeper h

/-- The printer numbers two variables at once. -/
theorem of_freshLocals
    (role role' : String) {q : String → String → Printing Doc}
    {f : String → String → Writing Unit}
    (h : ∀ x y, WritesDoc d (q x y) (f x y)) :
    WritesDoc d (do
      let n ← fresh 2
      q ("__" ++ role ++ n.repr) ("__" ++ role' ++ (n + 1).repr))
      (do
        let x ← freshLocal role
        let y ← freshLocal role'
        f x y) :=
  fun b hb => h _ _ { b with locals := b.locals + 2 } hb

end WritesDoc

namespace WritesLines

variable {d : Nat} {p q : Printing Doc} {m k : Writing Unit}

theorem congr (h : WritesLines d p m) (heq : p = q) : WritesLines d q m := heq ▸ h

theorem nil : WritesLines d (pure []) (pure ()) :=
  ⟨fun _ => .nil, Writes.pure.congr fun w => by simp⟩

theorem deeper (h : WritesLines (d + 1) p m) : WritesLines d p (deeper m) :=
  ⟨h.opens, h.writes.deeper⟩

theorem append
    (hm : WritesLines d p m) (hk : WritesLines d q k) :
    WritesLines d (do
      let x ← p
      let y ← q
      pure (x ++ y)) (m >>= fun _ => k) := by
  have hopens (n : Nat) := (hm.opens n).append (hk.opens (p.run n).2)
  refine ⟨hopens, (hm.writes.bind hk.writes).congr fun w => ?_⟩
  refine StateT.ext fun n => ?_
  have hclose := (hm.opens n).close_append (hk.opens (p.run n).2) w
  exact congrArg (fun text => (text, _)) hclose.symm

theorem line
    (h : WritesDoc d p m) :
    WritesLines d (do
      let x ← p
      pure (.lineBreak d :: x)) (writeLine m) :=
  ⟨fun _ => .cons d _, (Writes.writeLine h).congr fun w => by simp⟩

/-- The line feed behind the head stands before the first line, and the one behind the
last line before the tail. -/
theorem region
    (head : String) (h : WritesLines d p m) (tail : String) :
    WritesDoc d (do
      let x ← p
      pure (.text head :: (x ++ [.lineBreak d, .text tail]))) (writeRegion head m tail) := by
  refine ((Writes.push (head ++ "\n")).bind
    (h.writes.bind (Writes.writeIndent.bind (Writes.push tail)))).congr fun w => ?_
  refine StateT.ext fun n => ?_
  have hnewline := (h.opens n).render_newline w (List.replicate (d * w) ' ' ++ tail.toList)
  have htext :
      (head ++ "\n").toList ++
          ((p.run n).1.close w ++ (List.replicate (d * w) ' ' ++ tail.toList)) =
        Doc.render w (.text head :: ((p.run n).1 ++ [.lineBreak d, .text tail])) := by
    simp [hnewline]
  exact congrArg (fun text => (text, _)) htext

end WritesLines

/-! ## Taking tuples apart -/

theorem freshLocal_run
    (role : String) (b : Text.Buffer) :
    (freshLocal role).run b =
      ("__" ++ role ++ b.locals.repr, { b with locals := b.locals + 1 }) := rfl

theorem freshSlotNames_run
    (ps : List Pattern) (b : Text.Buffer) :
    (freshSlotNames ps).run b =
      (slotNames b.locals ps, { b with locals := b.locals + ps.countP isTuple }) := by
  induction ps generalizing b with
  | nil => rfl
  | cons p ps ih =>
      cases p with
      | name x =>
          have hcount : (Pattern.name x :: ps).countP isTuple = ps.countP isTuple :=
            List.countP_cons_of_neg Bool.false_ne_true
          rw [freshSlotNames, slotNames, StateT.run_bind, ih, hcount]
          rfl
      | tuple slots =>
          have hcount : (Pattern.tuple slots :: ps).countP isTuple = ps.countP isTuple + 1 :=
            List.countP_cons_of_pos rfl
          have hname : "__" ++ "slot" ++ b.locals.repr = slotName b.locals := rfl
          have hrest := ih { b with locals := b.locals + 1 }
          rw [freshSlotNames, slotNames, StateT.run_bind, freshLocal_run, hcount, hname,
            Nat.add_comm (ps.countP isTuple), ← Nat.add_assoc]
          exact congrArg (fun r => (slotName b.locals :: r.1, r.2)) hrest

theorem WritesDoc.of_freshSlotNames
    {d : Nat} {ps : List Pattern} {q : Nat → Printing Doc} {f : List String → Writing Unit}
    (h : ∀ first, WritesDoc d (q first) (f (slotNames first ps))) :
    WritesDoc d (do
      let first ← fresh (ps.countP isTuple)
      q first) (freshSlotNames ps >>= f) := by
  intro b hb
  rw [StateT.run_bind, freshSlotNames_run]
  exact h b.locals { b with locals := b.locals + ps.countP isTuple } hb

/-- The declarations that take a value apart, as a printer. -/
def destructuring (d : Nat) (source : Printing Doc) (p : Pattern) : Printing Doc := do
  let first ← fresh (nestedCount p)
  let source ← source
  let next ← get
  let r := destructure d first next source p
  set r.2
  pure r.1

/-- The declarations for nested tuples, as a printer. -/
def nestedDestructuring (d first : Nat) (ps : List Pattern) : Printing Doc := do
  let next ← get
  let r := destructureNested d first next ps
  set r.2
  pure r.1

mutual

theorem writeDestructure_writes
    (d : Nat) {q : Printing Doc} {source : Writing Unit} (h : WritesDoc d q source) :
    (p : Pattern) → WritesDoc d (destructuring d q p) (writeDestructure source p)
  | .name x => by
      rw [writeDestructure]
      refine (WritesDoc.text ("local " ++ x ++ " = ") h).congr ?_
      rfl
  | .tuple slots => by
      have hrest (first : Nat) :=
        WritesDoc.text ("local " ++ commaSeparated (slotNames first slots) ++ " = table.unpack(")
          (h.bind (.text ")" (writeNested_writes d slots first)))
      rw [writeDestructure]
      exact (WritesDoc.of_freshSlotNames hrest).congr rfl

theorem writeNested_writes
    (d : Nat) :
    (ps : List Pattern) → (first : Nat) →
      WritesDoc d (nestedDestructuring d first ps) (writeNested ps (slotNames first ps))
  | [], _ => WritesDoc.nil.congr rfl
  | .name x :: ps, first => by
      rw [slotNames, writeNested]
      exact (writeNested_writes d ps first).congr rfl
  | .tuple slots :: ps, first => by
      have hslot := writeDestructure_writes d (WritesDoc.push (slotName first)) (.tuple slots)
      have hrest := writeNested_writes d ps (first + 1)
      rw [slotNames, writeNested]
      exact (WritesDoc.newline.bind (hslot.bind hrest)).congr rfl

end

/-! ## Parts of expressions -/

theorem WritesDoc.grouped
    {d : Nat} {p : Printing Doc} {m : Writing Unit} (bare : Bool) (h : WritesDoc d p m) :
    WritesDoc d (do
      let x ← p
      pure (grouped bare x)) (writeGrouped bare m) := by
  cases bare with
  | true => exact h.congr (by simp [Lua.grouped])
  | false =>
      exact WritesDoc.congr (.text "(" (h.bind (.push ")"))) (by simp [Lua.grouped])

theorem WritesDoc.memberAccess
    {d : Nat} (computed : Bool) {property : Expr}
    (h : WritesDoc d (expr d property) (writeExpr property)) :
    WritesDoc d (do
      let x ← expr d property
      pure (memberAccess computed property x))
      (writeMemberAccess computed property (writeExpr property)) := by
  have hbracketed := WritesDoc.text "[" (h.bind (.push "]"))
  by_cases hname : computed = false ∧ ∃ s, property = .literal (.string s) ∧
      Text.isPlainIdentifier s = true
  · obtain ⟨rfl, s, rfl, hs⟩ := hname
    have hwrite : writeMemberAccess false (.literal (.string s))
        (writeExpr (.literal (.string s))) = Text.Writing.push ("." ++ s) := by
      simp [writeMemberAccess, hs]
    rw [hwrite]
    exact (WritesDoc.push ("." ++ s)).congr (by simp [expr, Lua.memberAccess, hs])
  · have hcond (s : String) (hs : property = .literal (.string s)) :
        (!computed && Text.isPlainIdentifier s) = false := by
      cases computed with
      | true => rfl
      | false => exact Bool.eq_false_iff.mpr fun hplain => hname ⟨rfl, s, hs, hplain⟩
    have hwrite : writeMemberAccess computed property (writeExpr property) = (do
        Text.Writing.push "["
        writeExpr property
        Text.Writing.push "]") := by
      unfold writeMemberAccess
      split
      · rw [hcond _ rfl]
        rfl
      · rfl
    have hdoc (x : Doc) :
        Lua.memberAccess computed property x = .text "[" :: (x ++ [.text "]"]) := by
      unfold Lua.memberAccess
      split
      · rw [hcond _ rfl]
        rfl
      · rfl
    rw [hwrite]
    exact hbracketed.congr (by simp [hdoc])

/-! ## Statements and where they stand -/

/-- The printer of a statement begins a line, and the writer continues it. -/
def WritesStmt (d : Nat) (q : Printing Doc) (m : Writing Unit) : Prop :=
  ∃ p : Printing Doc, WritesDoc d p m ∧ q = (do
    let x ← p
    pure (.lineBreak d :: x))

namespace WritesStmt

variable {d : Nat} {p q : Printing Doc} {m k : Writing Unit}

theorem line (h : WritesStmt d p m) : WritesLines d p (writeLine m) := by
  obtain ⟨_, hdoc, rfl⟩ := h
  exact .line hdoc

/-- The statement stands behind an open line. -/
theorem behind
    (h : WritesStmt d p m) : WritesDoc d p (newline >>= fun _ => m) := by
  obtain ⟨_, hdoc, rfl⟩ := h
  exact (WritesDoc.newline.bind hdoc).congr (by simp)

end WritesStmt

/-- The statement is written in all places as it is printed. -/
structure WritesPlaced (d : Nat) (s : Stmt) : Prop where
  alone : WritesStmt d (stmt d false s) (writeStmt .statement s)
  body : WritesLines d (stmt d true s)
    (if isBlock s then writeStmt .body s else writeLine (writeStmt .statement s))
  behind : WritesDoc d (stmt d true s)
    (writeBodyBehind (isBlock s) (fun place => writeStmt place s))

/-- Only for a block it matters where it stands. -/
theorem WritesPlaced.of_doc
    {d : Nat} {s : Stmt} {p : Printing Doc} (hs : isBlock s = false)
    (hbare : stmt d true s = stmt d false s) (hdoc : WritesDoc d p (writeStmt .statement s))
    (hstmt : stmt d false s = (do
      let x ← p
      pure (.lineBreak d :: x))) : WritesPlaced d s := by
  have halone : WritesStmt d (stmt d false s) (writeStmt .statement s) := ⟨p, hdoc, hstmt⟩
  refine ⟨halone, ?_, ?_⟩
  · rw [hs, hbare]
    exact halone.line
  · rw [hs, hbare]
    exact halone.behind

theorem WritesPlaced.inBody
    {d : Nat} {s : Stmt} (h : WritesPlaced (d + 1) s) :
    WritesLines d (stmt (d + 1) true s)
      (writeBody (isBlock s) (fun place => writeStmt place s)) :=
  h.body.deeper

section

variable {d : Nat} {q : Printing Doc} {m u : Writing Unit}

theorem writeLoopBody_writes
    (label : Bool) (body : Nat → Printing Doc) (hbody : ∀ d, WritesLines d (body (d + 1)) m) :
    WritesLines d (loopBody d label body none) (writeLoopBody label false m u) := by
  cases label with
  | false => exact hbody d
  | true =>
      have hlabel := (WritesLines.line (WritesDoc.push (d := d + 1) "::continue::")).deeper
      exact ((hbody d).append hlabel).congr (by simp [loopBody])

/-- An update stands on a line behind the body, and behind the label if there is one. -/
theorem writeLoopBody_update_writes
    (label : Bool) (body : Nat → Printing Doc) (hbody : ∀ d, WritesLines d (body (d + 1)) m)
    (hupdate : WritesDoc (d + 1) q u) :
    WritesLines d (loopBody d label body (some q)) (writeLoopBody label true m u) := by
  cases label with
  | false => exact ((hbody d).append (WritesLines.line hupdate).deeper).congr (by simp [loopBody])
  | true =>
      have hregion := (hbody (d + 1)).region "do" "end"
      have hlabel := WritesLines.line (WritesDoc.push (d := d + 1) "::continue::")
      have hlines := (WritesLines.line hregion).append (hlabel.append (WritesLines.line hupdate))
      exact hlines.deeper.congr (by simp [loopBody])

end

/-! ## Printers of parts that may be missing -/

def optionalDoc (d : Nat) (default : String) : Option Expr → Printing Doc
  | none => pure [.text default]
  | some e => expr d e

def initDoc (d : Nat) : Option Stmt → Printing Doc
  | none => pure []
  | some i => stmt d false i

def handlerDoc (d : Nat) (ok err param : String) : Option Stmt → Printing Doc
  | none => pure []
  | some c => do
      let c ← stmt (d + 2) true c
      let call := ok ++ ", " ++ err ++ " = pcall(function(" ++ param ++ ")"
      pure (.lineBreak d :: .text ("if not " ++ ok ++ " then") ::
        .lineBreak (d + 1) :: .text call :: c ++
        [.lineBreak (d + 1), .text ("end, " ++ err ++ ")"), .lineBreak d, .text "end"])

def finalizerDoc (d : Nat) : Option Stmt → Printing Doc
  | none => pure []
  | some f => stmt d true f

theorem stmt_forLoop
    (d : Nat) (bare : Bool) (i : Option Stmt) (t u : Option Expr) (b : Stmt) :
    stmt d bare (.forLoop i t u b) = (do
      let i ← initDoc (d + 1) i
      let t ← optionalDoc (d + 1) "true" t
      let b ← loopBody (d + 1) (continuesLoop b) (fun d => stmt d true b) (u.map (expr (d + 2)))
      pure (.lineBreak d :: .text "do" :: i ++
        .lineBreak (d + 1) :: .text "while " :: t ++ .text " do" :: b ++
        [.lineBreak (d + 1), .text "end", .lineBreak d, .text "end"])) := by
  cases i <;> cases t <;> cases u <;> rfl

theorem stmt_tryCatch
    (d : Nat) (bare : Bool) (b : Stmt) (p : Option String) (c f : Option Stmt) :
    stmt d bare (.tryCatch b p c f) = (do
      let n ← fresh 2
      let ok := "__ok" ++ n.repr
      let err := "__err" ++ (n + 1).repr
      let b ← stmt (d + 1) true b
      let handler ← handlerDoc d ok err (p.getD "_") c
      let finalizer ← finalizerDoc d f
      pure (.lineBreak d :: .text ("local " ++ ok ++ ", " ++ err ++ " = pcall(function()")
        :: b ++ [.lineBreak d, .text "end)"] ++ handler ++ finalizer ++
        [.lineBreak d, .text ("if not " ++ ok ++ " then"),
          .lineBreak (d + 1), .text ("error(" ++ err ++ ", 0)"),
          .lineBreak d, .text "end"])) := by
  cases c <;> cases f <;> rfl

/-! ## The writer -/

theorem WritesDoc.function
    {d : Nat} (head : String) {p : Printing Doc} {m : Writing Unit}
    (h : WritesLines (d + 1) p m) :
    WritesDoc d (do
      let body ← p
      pure (.text head :: body ++ [.lineBreak d, .text "end"]))
      (writeRegion head (Text.Writing.deeper m) "end") :=
  (h.deeper.region head "end").congr (by simp)

/-- An error that was not handled is raised again. -/
theorem writesDoc_rethrow
    (d : Nat) (ok err : String) :
    WritesDoc d
      (pure [.lineBreak d, .text ("if not " ++ ok ++ " then"),
        .lineBreak (d + 1), .text ("error(" ++ err ++ ", 0)"), .lineBreak d, .text "end"])
      (do
        newline
        push ("if not " ++ ok ++ " then")
        deeper (do
          newline
          push ("error(" ++ err ++ ", 0)"))
        newline
        push "end") := by
  have herror := (WritesDoc.newline.bind (WritesDoc.push (d := d + 1)
    ("error(" ++ err ++ ", 0)"))).deeper
  exact (WritesDoc.newline.bind (.text _ (herror.bind (WritesDoc.newline.bind
    (.push "end"))))).congr (by simp)

mutual

/-- An expression writes its document. -/
theorem writeExpr_writes : (e : Expr) → (d : Nat) → WritesDoc d (expr d e) (writeExpr e)
  | .literal l, d => by
      rw [expr, writeExpr]
      exact .push _
  | .ident x, d => by
      rw [expr, writeExpr]
      exact .push _
  | .binary l op r, d => by
      have hl := writeExpr_writes l d
      have hr := writeExpr_writes r d
      rw [expr, writeExpr]
      exact WritesDoc.congr (.text _ (hl.bind (.text _ (hr.bind (.push _))))) (by simp)
  | .unary op e, d => by
      rw [expr, writeExpr]
      exact .text _ (writeExpr_writes e d)
  | .call f args, d => by
      have hf := (writeExpr_writes f d).grouped (isPrefixForm f)
      have hargs := writeExprs_writes args d
      rw [expr, writeExpr]
      exact (hf.bind (.text _ (hargs.bind (.push _)))).congr (by simp)
  | .methodCall r m args, d => by
      have hr := (writeExpr_writes r d).grouped (isPrefixForm r)
      have hargs := writeExprs_writes args d
      rw [expr, writeExpr]
      exact (hr.bind (.text _ (.text _ (hargs.bind (.push _))))).congr (by simp)
  | .member o p computed, d => by
      have ho := (writeExpr_writes o d).grouped (isPrefixForm o)
      have hp := (writeExpr_writes p d).memberAccess computed
      rw [expr, writeExpr]
      exact (ho.bind hp).congr (by simp)
  | .array [], d => by
      rw [expr, writeExpr]
      exact (WritesDoc.push _).congr (by simp [exprs, table])
  | .array (e :: es), d => by
      have hentries := writeExprs_writes (e :: es) d
      rw [expr, writeExpr]
      exact WritesDoc.congr (.text _ (hentries.bind (.push _))) (by simp [exprs, table])
  | .object [], d => by
      rw [expr, writeExpr]
      exact (WritesDoc.push _).congr (by simp [pairs, table])
  | .object ((k, e) :: ps), d => by
      have hentries := writePairs_writes ((k, e) :: ps) d
      rw [expr, writeExpr]
      exact WritesDoc.congr (.text _ (hentries.bind (.push _))) (by simp [pairs, table])
  | .function ⟨name, params, body, isAsync⟩, d => by
      rw [expr, writeExpr]
      exact .function _ (writeStmts_writes body (d + 1))
  | .conditional t c a, d => by
      have ht := writeExpr_writes t d
      have hc := writeExpr_writes c d
      have ha := writeExpr_writes a d
      rw [expr, writeExpr]
      exact WritesDoc.congr
        (.text _ (ht.bind (.text _ (hc.bind (.text _ (ha.bind (.push _))))))) (by simp)
  | .assign t v, d => by
      have ht := writeExpr_writes t d
      have hv := writeExpr_writes v d
      rw [expr, writeExpr]
      exact (ht.bind (.text _ hv)).congr (by simp)
  | .await e, d => by
      rw [expr, writeExpr]
      exact writeExpr_writes e d

theorem writeExprs_writes :
    (es : List Expr) → (d : Nat) →
      WritesDoc d (do
        let es ← exprs d es
        pure (Doc.joinWith ", " es)) (writeExprs es)
  | [], d => by
      rw [exprs, writeExprs]
      exact .nil
  | [e], d => by
      rw [exprs, exprs, writeExprs]
      exact (writeExpr_writes e d).congr (by simp [Doc.joinWith])
  | e :: e' :: es, d => by
      have hrest := writeExprs_writes (e' :: es) d
      exact ((writeExpr_writes e d).bind (.text ", " hrest)).congr
        (by simp [exprs, Doc.joinWith])

theorem writePairs_writes :
    (ps : List (String × Expr)) → (d : Nat) →
      WritesDoc d (do
        let ps ← pairs d ps
        pure (Doc.joinWith ", " ps)) (writePairs ps)
  | [], d => by
      rw [pairs, writePairs]
      exact .nil
  | [(k, e)], d => by
      rw [pairs, pairs, writePairs]
      exact WritesDoc.congr (.text _ (writeExpr_writes e d)) (by simp [Doc.joinWith])
  | (k, e) :: (k', e') :: ps, d => by
      have hrest := writePairs_writes ((k', e') :: ps) d
      exact WritesDoc.congr
        (.text (key k ++ " = ") ((writeExpr_writes e d).bind (.text ", " hrest)))
        (by simp [pairs, Doc.joinWith])

theorem writeInitializer_writes :
    (i : Option Expr) → (d : Nat) → WritesDoc d (initializer d i) (writeInitializer i)
  | none, d => by
      rw [initializer, writeInitializer]
      exact .nil
  | some e, d => by
      rw [initializer, writeInitializer]
      exact .text _ (writeExpr_writes e d)

theorem writeOptional_writes
    (default : String) :
    (e : Option Expr) → (d : Nat) →
      WritesDoc d (optionalDoc d default e) (writeOptional default e)
  | none, d => by
      rw [optionalDoc, writeOptional]
      exact .push _
  | some e, d => by
      rw [optionalDoc, writeOptional]
      exact writeExpr_writes e d

/-- A statement is written in all places as it is printed. -/
theorem writeStmt_writes : (s : Stmt) → (d : Nat) → WritesPlaced d s
  | .expr e, d => .of_doc rfl rfl (writeExpr_writes e d) rfl
  | .declare x i m, d => by
      have hdoc := WritesDoc.text ("local " ++ x) (writeInitializer_writes i d)
      exact .of_doc rfl rfl hdoc (by simp [stmt])
  | .destructure p i, d => by
      have hdoc := writeDestructure_writes d (writeExpr_writes i d) p
      exact .of_doc rfl rfl hdoc rfl
  | .block b, d => by
      have hregion := WritesDoc.function "do" (writeStmts_writes b (d + 1))
      exact ⟨⟨_, hregion, by simp [stmt]⟩, writeStmts_writes b d, writeBehind_writes b d⟩
  | .ifElse t c a, d => by
      have hbranches := (writeStmt_writes c (d + 1)).inBody.append (writeElse_writes a d)
      have hdoc := WritesDoc.text "if " ((writeExpr_writes t d).bind
        (hbranches.region " then" "end"))
      exact .of_doc rfl rfl hdoc (by simp [stmt])
  | .whileLoop t b, d => by
      have hbody := writeLoopBody_writes (d := d) (u := pure ()) (continuesLoop b)
        (fun d => stmt d true b) fun d => (writeStmt_writes b (d + 1)).inBody
      have hdoc := WritesDoc.text "while " ((writeExpr_writes t d).bind
        (hbody.region " do" "end"))
      exact .of_doc rfl rfl hdoc (by simp [stmt])
  | .forLoop i t u b, d => by
      have hinBody (d : Nat) := (writeStmt_writes b (d + 1)).inBody
      have hupdate := writeOptional_writes "" u (d + 2)
      have hbody : WritesLines (d + 1)
          (loopBody (d + 1) (continuesLoop b) (fun d => stmt d true b) (u.map (expr (d + 2))))
          (writeLoopBody (continuesLoop b) u.isSome
            (writeBody (isBlock b) (fun place => writeStmt place b)) (writeOptional "" u)) := by
        cases u with
        | none => exact writeLoopBody_writes _ (fun d => stmt d true b) hinBody
        | some u => exact writeLoopBody_update_writes _ (fun d => stmt d true b) hinBody hupdate
      have hloop := WritesLines.line (.text "while " ((writeOptional_writes "true" t (d + 1)).bind
        (hbody.region " do" "end")))
      have hdoc := ((writeForInit_writes i (d + 1)).append hloop).deeper.region "do" "end"
      exact .of_doc rfl (by rw [stmt_forLoop, stmt_forLoop]) hdoc (by simp [stmt_forLoop])
  | .forEach x i b, d => by
      have hbody := writeLoopBody_writes (d := d) (u := pure ()) (continuesLoop b)
        (fun d => stmt d true b) fun d => (writeStmt_writes b (d + 1)).inBody
      have hdoc := WritesDoc.text ("for _, " ++ x ++ " in ipairs(") ((writeExpr_writes i d).bind
        (hbody.region ") do" "end"))
      exact .of_doc rfl rfl hdoc (by simp [stmt])
  | .ret none, d => .of_doc rfl rfl (.push "return") (by simp [stmt])
  | .ret (some e), d => by
      have hdoc := WritesDoc.text "return " (writeExpr_writes e d)
      exact .of_doc rfl rfl hdoc (by simp [stmt])
  | .breakLoop, d => .of_doc rfl rfl (.push "break") (by simp [stmt])
  | .continueLoop, d => .of_doc rfl rfl (.push "goto continue") (by simp [stmt])
  | .throw e, d => by
      have hdoc := WritesDoc.text "error(" ((writeExpr_writes e d).bind (.push ", 0)"))
      exact .of_doc rfl rfl hdoc (by simp [stmt])
  | .tryCatch b p c f, d => by
      have hparts (ok err : String) :=
        ((writeStmt_writes b (d + 1)).inBody.region
          ("local " ++ ok ++ ", " ++ err ++ " = pcall(function()") "end)").bind
          ((writeHandler_writes ok err (p.getD "_") c d).bind
            ((writeFinalizer_writes f d).bind (writesDoc_rethrow d ok err)))
      have hdoc := WritesDoc.of_freshLocals "ok" "err" hparts
      exact .of_doc rfl (by rw [stmt_tryCatch, stmt_tryCatch]) hdoc (by simp [stmt_tryCatch])
  | .function ⟨name, params, body, isAsync⟩, d => by
      have hdoc := WritesDoc.function
        ("local function " ++ name ++ "(" ++ commaSeparated params ++ ")")
        (writeStmts_writes body (d + 1))
      exact .of_doc rfl rfl hdoc (by simp [stmt])
  | .holding s, d =>
      .of_doc rfl rfl (.push "error(\"unlowered scoped statement\", 0)") (by simp [stmt])

theorem writeStmts_writes :
    (ss : List Stmt) → (d : Nat) → WritesLines d (stmts d ss) (writeStmts ss)
  | [], d => by
      rw [stmts, writeStmts]
      exact .nil
  | s :: ss, d => by
      rw [stmts, writeStmts]
      exact .append (writeStmt_writes s d).alone.line (writeStmts_writes ss d)

theorem writeBehind_writes :
    (ss : List Stmt) → (d : Nat) → WritesDoc d (stmts d ss) (writeBehind ss)
  | [], d => by
      rw [stmts, writeBehind]
      exact .nil
  | s :: ss, d => by
      obtain ⟨p, hdoc, hstmt⟩ := (writeStmt_writes s d).alone
      rw [stmts, writeBehind, hstmt]
      exact (WritesDoc.newline.bind (hdoc.bind (writeBehind_writes ss d))).congr (by simp)

theorem writeForInit_writes :
    (i : Option Stmt) → (d : Nat) → WritesLines d (initDoc d i) (writeForInit i)
  | none, d => by
      rw [initDoc, writeForInit]
      exact .nil
  | some i, d => by
      rw [initDoc, writeForInit]
      exact (writeStmt_writes i d).alone.line

theorem writeHandler_writes
    (ok err param : String) :
    (c : Option Stmt) → (d : Nat) →
      WritesDoc d (handlerDoc d ok err param c) (writeHandler ok err param c)
  | none, d => by
      rw [handlerDoc, writeHandler]
      exact .nil
  | some c, d => by
      have hcall := (WritesDoc.newline.bind ((writeStmt_writes c (d + 2)).inBody.region
        (ok ++ ", " ++ err ++ " = pcall(function(" ++ param ++ ")")
        ("end, " ++ err ++ ")"))).deeper
      rw [handlerDoc, writeHandler]
      exact (WritesDoc.newline.bind (.text _ (hcall.bind (WritesDoc.newline.bind
        (.push "end"))))).congr (by simp)

theorem writeFinalizer_writes :
    (f : Option Stmt) → (d : Nat) → WritesDoc d (finalizerDoc d f) (writeFinalizer f)
  | none, d => by
      rw [finalizerDoc, writeFinalizer]
      exact .nil
  | some f, d => by
      rw [finalizerDoc, writeFinalizer]
      exact (writeStmt_writes f d).behind

theorem writeElse_writes :
    (s : Option Stmt) → (d : Nat) → WritesLines d (elseBranch d s) (writeElse s)
  | none, d => by
      rw [elseBranch, writeElse]
      exact .nil
  | some (.ifElse t c a), d => by
      have hhead := WritesLines.line (.text "elseif " ((writeExpr_writes t d).bind
        (.push " then")))
      have hbranches := (writeStmt_writes c (d + 1)).inBody.append (writeElse_writes a d)
      rw [elseBranch, writeElse]
      exact (hhead.append hbranches).congr (by simp)
  | some (.expr _), d | some (.declare ..), d | some (.destructure ..), d | some (.block _), d
  | some (.whileLoop ..), d | some (.forLoop ..), d | some (.forEach ..), d | some (.ret _), d
  | some .breakLoop, d | some .continueLoop, d | some (.throw _), d | some (.tryCatch ..), d
  | some (.function _), d | some (.holding _), d =>
      ((WritesLines.line (.push "else")).append (writeStmt_writes _ (d + 1)).inBody).congr rfl

end

/-- The text of a program is that of its lines. -/
theorem write_eq_renderLines
    (p : Program) (w : Nat) : write p w = Text.renderLines w (lines p) := by
  have hlines := (writeStmts_writes p.body 0).writes.textOf_eq w
  rw [write, hlines]
  exact String.ofList_toList

end Lua

end Bracket
