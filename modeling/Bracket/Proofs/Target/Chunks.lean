import Bracket.Proofs.Evaluation.Unpacking
import Bracket.Proofs.Target.Printing

/-!
# Lua code as a tree of blocks

The text that is written for a program has blocks: bodies of functions and loops, branches of
conditionals, and blocks of their own.  A function may stand inside of any expression, so its
body belongs to a part of a line.  The tree keeps the blocks and the statements in which
control goes on elsewhere, labels among them; of all other code it keeps the text.

The main statement is that the text of the tree of a program is what is written for the
program, at every width.
-/

namespace Bracket

namespace Lua

open Text (Doc commaSeparated)

mutual

/-- A part of a line: a text, or a function with its body on lines of their own. -/
inductive Part where
  | text (s : String)
  | function (signature : String) (body : List Code)

/-- A statement of Lua. -/
inductive Code where
  /-- A statement without a block of its own, such as a declaration or a call. -/
  | line (parts : List Part)
  | ret (value : List Part)
  /-- A jump to the label. -/
  | goto
  /-- The label at which a loop goes on with its next turn. -/
  | label
  /-- A block of its own. -/
  | region (body : List Code)
  | branch (test : List Part) (body : List Code) (rest : Rest)
  | loop (head : List Part) (body : List Code)

/-- What stands behind a branch of a conditional. -/
inductive Rest where
  | done
  | otherwise (body : List Code)
  | branch (test : List Part) (body : List Code) (rest : Rest)

end

/-! ## The text of code -/

mutual

/-- The document of a part of a line at the given depth. -/
def Part.doc (d : Nat) : Part → Doc
  | .text s => [.text s]
  | .function signature body =>
      .text "function" :: .text signature :: Code.docs (d + 1) body
        ++ [.lineBreak d, .text "end"]

def Part.docs (d : Nat) : List Part → Doc
  | [] => []
  | p :: ps => p.doc d ++ Part.docs d ps

/-- The document of a statement on lines at the given depth. -/
def Code.doc (d : Nat) : Code → Doc
  | .line parts => .lineBreak d :: Part.docs d parts
  | .ret value => .lineBreak d :: .text "return" :: Part.docs d value
  | .goto => [.lineBreak d, .text "goto continue"]
  | .label => [.lineBreak d, .text "::continue::"]
  | .region body =>
      .lineBreak d :: .text "do" :: Code.docs (d + 1) body ++ [.lineBreak d, .text "end"]
  | .branch test body rest =>
      .lineBreak d :: .text "if " :: Part.docs d test ++ .text " then" :: Code.docs (d + 1) body
        ++ rest.doc d ++ [.lineBreak d, .text "end"]
  | .loop head body =>
      .lineBreak d :: Part.docs d head ++ .text " do" :: Code.docs (d + 1) body
        ++ [.lineBreak d, .text "end"]

def Code.docs (d : Nat) : List Code → Doc
  | [] => []
  | c :: cs => c.doc d ++ Code.docs d cs

def Rest.doc (d : Nat) : Rest → Doc
  | .done => []
  | .otherwise body => .lineBreak d :: .text "else" :: Code.docs (d + 1) body
  | .branch test body rest =>
      .lineBreak d :: .text "elseif " :: Part.docs d test ++ .text " then"
        :: Code.docs (d + 1) body ++ rest.doc d

end

/-- The text of statements at the margin. -/
def Code.text (w : Nat) (cs : List Code) : String := Text.renderLines w (Code.docs 0 cs).lines

/-! ## The code of a program -/

def groupedParts (bare : Bool) (parts : List Part) : List Part :=
  if bare then parts else .text "(" :: parts ++ [.text ")"]

def accessParts (name : Option String) (property : List Part) : List Part :=
  match name with
  | some s => [.text ("." ++ s)]
  | none => .text "[" :: property ++ [.text "]"]

def tableParts (isEmpty : Bool) (entries : List Part) : List Part :=
  if isEmpty then [.text "\x7b\x7d"] else .text "\x7b " :: entries ++ [.text " \x7d"]

/-- The body of a loop with its label and its update. -/
def loopCode (label : Bool) (body : List Code) : Option (List Part) → List Code
  | none => if label then body ++ [.label] else body
  | some update =>
      if label then [.region body, .label, .line update] else body ++ [.line update]

def Source.parts (initial : List Part) : Source → List Part
  | .initial => initial
  | .named x => [.text x]

def Declaration.parts (initial : List Part) : Declaration → List Part
  | .keep x source => .text ("local " ++ x ++ " = ") :: source.parts initial
  | .unpack xs source =>
      .text ("local " ++ commaSeparated xs ++ " = table.unpack(") :: source.parts initial
        ++ [.text ")"]

/-- A protected call of a function without a name, whose results are assigned. -/
def protectedCall (results signature : String) (body : List Code) (args : String) : Code :=
  .line [.text (results ++ " = pcall("), .function signature body, .text (args ++ ")")]

/-- A statement that runs if a protected call has failed. -/
def onFailed (ok : String) (body : Code) : Code := .branch [.text ("not " ++ ok)] [body] .done

mutual

/-- The parts of an expression. -/
def exprParts : Expr → Printing (List Part)
  | .literal l => pure [.text (literal l)]
  | .ident n => pure [.text n]
  | .binary l op r => do
      let l ← exprParts l
      let r ← exprParts r
      pure (.text "(" :: l ++ .text (" " ++ binaryOp op ++ " ") :: r ++ [.text ")"])
  | .unary op e => do
      let e ← exprParts e
      pure (.text (unaryOp op) :: e)
  | .call f args => do
      let callee ← exprParts f
      let args ← exprsParts args
      pure (groupedParts (isPrefixForm f) callee ++ .text "(" :: args ++ [.text ")"])
  | .methodCall r m args => do
      let receiver ← exprParts r
      let args ← exprsParts args
      pure (groupedParts (isPrefixForm r) receiver ++ .text (":" ++ m) :: .text "(" :: args
        ++ [.text ")"])
  | .member o p computed => do
      let object ← exprParts o
      let property ← exprParts p
      pure (groupedParts (isPrefixForm o) object ++ accessParts (pointName? computed p) property)
  | .array es => do
      let entries ← exprsParts es
      pure (tableParts es.isEmpty entries)
  | .object ps => do
      let entries ← pairsParts ps
      pure (tableParts ps.isEmpty entries)
  | .function ⟨_, params, body, _⟩ => do
      let body ← stmtsCode body
      pure [.function ("(" ++ commaSeparated params ++ ")") body]
  | .conditional t c a => do
      let t ← exprParts t
      let c ← exprParts c
      let a ← exprParts a
      pure (.text "(" :: t ++ .text " and " :: c ++ .text " or " :: a ++ [.text ")"])
  | .assign t v => do
      let t ← exprParts t
      let v ← exprParts v
      pure (t ++ .text " = " :: v)
  | .await e => exprParts e

/-- The parts of expressions with commas between them. -/
def exprsParts : List Expr → Printing (List Part)
  | [] => pure []
  | [e] => exprParts e
  | e :: e' :: es => do
      let e ← exprParts e
      let es ← exprsParts (e' :: es)
      pure (e ++ .text ", " :: es)

/-- The entries of a table constructor with keys. -/
def pairsParts : List (String × Expr) → Printing (List Part)
  | [] => pure []
  | [(k, e)] => do
      let e ← exprParts e
      pure (.text (key k ++ " = ") :: e)
  | (k, e) :: (k', e') :: ps => do
      let e ← exprParts e
      let ps ← pairsParts ((k', e') :: ps)
      pure (.text (key k ++ " = ") :: e ++ .text ", " :: ps)

/-- The parts of an expression behind a text, if there is one. -/
def partsBehind (mark : String) : Option Expr → Printing (List Part)
  | none => pure []
  | some e => do
      let e ← exprParts e
      pure (.text mark :: e)

/-- The test of a counting loop. -/
def testParts : Option Expr → Printing (List Part)
  | none => pure [.text "true"]
  | some e => exprParts e

/-- The update of a counting loop. -/
def updateParts : Option Expr → Printing (Option (List Part))
  | none => pure none
  | some e => do
      let e ← exprParts e
      pure (some e)

/-- The code of a statement.  A block in the place of a body is `bare`. -/
def stmtCode (bare : Bool) : Stmt → Printing (List Code)
  | .expr e => do
      let e ← exprParts e
      pure [.line e]
  | .declare n i _ => do
      let i ← partsBehind " = " i
      pure [.line (.text ("local " ++ n) :: i)]
  | .destructure p i => do
      let first ← fresh (nestedCount p)
      let initial ← exprParts i
      let next ← get
      let r := declarations first next .initial p
      set r.2
      pure (r.1.map fun line => .line (line.parts initial))
  | .block b =>
      if bare then stmtsCode b
      else do
        let b ← stmtsCode b
        pure [.region b]
  | .ifElse t c a => do
      let t ← exprParts t
      let c ← stmtCode true c
      let a ← elseCode a
      pure [.branch t c a]
  | .whileLoop t b => do
      let t ← exprParts t
      let body ← stmtCode true b
      pure [.loop (.text "while " :: t) (loopCode (continuesLoop b) body none)]
  | .forLoop i t u b => do
      let i ← optionCode false i
      let t ← testParts t
      let body ← stmtCode true b
      let u ← updateParts u
      pure [.region (i ++ [.loop (.text "while " :: t) (loopCode (continuesLoop b) body u)])]
  | .forEach n i b => do
      let i ← exprParts i
      let body ← stmtCode true b
      pure [.loop (.text ("for _, " ++ n ++ " in ipairs(") :: i ++ [.text ")"])
        (loopCode (continuesLoop b) body none)]
  | .ret v => do
      let v ← partsBehind " " v
      pure [.ret v]
  | .breakLoop => pure [.line [.text "break"]]
  | .continueLoop => pure [.goto]
  | .throw e => do
      let e ← exprParts e
      pure [.line (.text "error(" :: e ++ [.text ", 0)"])]
  | .tryCatch b p c f => do
      let n ← fresh 2
      let ok := "__ok" ++ n.repr
      let err := "__err" ++ (n + 1).repr
      let b ← stmtCode true b
      let c ← handlerCode ok err (p.getD "_") c
      let f ← optionCode true f
      pure (protectedCall ("local " ++ ok ++ ", " ++ err) "()" b "" :: c ++ f
        ++ [onFailed ok (.line [.text ("error(" ++ err ++ ", 0)")])])
  | .function ⟨name, params, body, _⟩ => do
      let body ← stmtsCode body
      pure [.line [.text "local ",
        .function (" " ++ name ++ "(" ++ commaSeparated params ++ ")") body]]
  | .holding _ => pure [.line [.text "error(\"unlowered scoped statement\", 0)"]]

def stmtsCode : List Stmt → Printing (List Code)
  | [] => pure []
  | s :: ss => do
      let s ← stmtCode false s
      let ss ← stmtsCode ss
      pure (s ++ ss)

/-- The code of a statement, if there is one. -/
def optionCode (bare : Bool) : Option Stmt → Printing (List Code)
  | none => pure []
  | some s => stmtCode bare s

/-- The protected call of an exception handler. -/
def handlerCode (ok err param : String) : Option Stmt → Printing (List Code)
  | none => pure []
  | some c => do
      let c ← stmtCode true c
      pure [onFailed ok
        (protectedCall (ok ++ ", " ++ err) ("(" ++ param ++ ")") c (", " ++ err))]

/-- What stands behind the first branch of a conditional. -/
def elseCode : Option Stmt → Printing Rest
  | none => pure .done
  | some (.ifElse t c a) => do
      let t ← exprParts t
      let c ← stmtCode true c
      let a ← elseCode a
      pure (.branch t c a)
  | some s => do
      let s ← stmtCode true s
      pure (.otherwise s)

end

/-- The code of a program. -/
def code (p : Program) : List Code := ((stmtsCode p.body).run 0).1

/-! ## Documents with the same text -/

@[simp] theorem Part.docs_nil (d : Nat) : Part.docs d [] = [] := by rw [Part.docs]

@[simp] theorem Part.docs_cons
    (d : Nat) (p : Part) (ps : List Part) : Part.docs d (p :: ps) = p.doc d ++ Part.docs d ps := by
  rw [Part.docs]

@[simp] theorem Part.docs_append
    (d : Nat) (ps qs : List Part) : Part.docs d (ps ++ qs) = Part.docs d ps ++ Part.docs d qs := by
  induction ps with
  | nil => simp
  | cons p ps ih => simp [ih]

@[simp] theorem Code.docs_nil (d : Nat) : Code.docs d [] = [] := by rw [Code.docs]

@[simp] theorem Code.docs_cons
    (d : Nat) (c : Code) (cs : List Code) : Code.docs d (c :: cs) = c.doc d ++ Code.docs d cs := by
  rw [Code.docs]

@[simp] theorem Code.docs_append
    (d : Nat) (cs ds : List Code) : Code.docs d (cs ++ ds) = Code.docs d cs ++ Code.docs d ds := by
  induction cs with
  | nil => simp
  | cons c cs ih => simp [ih]

attribute [simp] Part.doc Code.doc Rest.doc

theorem Code.opensLines_docs (d : Nat) (cs : List Code) : (Code.docs d cs).OpensLines := by
  cases cs with
  | nil => exact .inl (Code.docs_nil d)
  | cons c cs =>
      rw [Code.docs_cons]
      cases c <;> exact .inr ⟨d, _, by rw [Code.doc]; rfl⟩

/-- The document has the text of the given parts of a line. -/
def ShowsParts (d : Nat) (doc : Doc) (parts : List Part) : Prop :=
  ∀ w, doc.render w = (Part.docs d parts).render w

/-- The document has the text of the given statements. -/
def ShowsCode (d : Nat) (doc : Doc) (cs : List Code) : Prop :=
  ∀ w, doc.render w = (Code.docs d cs).render w

/-- The document has the text of what stands behind a branch. -/
def ShowsRest (d : Nat) (doc : Doc) (rest : Rest) : Prop :=
  ∀ w, doc.render w = (rest.doc d).render w

theorem ShowsParts.grouped
    {d : Nat} {doc : Doc} {parts : List Part} (bare : Bool) (h : ShowsParts d doc parts) :
    ShowsParts d (grouped bare doc) (groupedParts bare parts) := by
  intro w
  cases bare with
  | true => simpa [Lua.grouped, groupedParts] using h w
  | false => simp [Lua.grouped, groupedParts, h w]

theorem ShowsParts.memberAccess
    {d : Nat} {doc : Doc} {parts : List Part} (computed : Bool) (property : Expr)
    (h : ShowsParts d doc parts) :
    ShowsParts d (memberAccess computed property doc)
      (accessParts (pointName? computed property) parts) := by
  intro w
  rw [memberAccess_eq]
  cases pointName? computed property with
  | some s => simp [accessParts]
  | none => simp [accessParts, h w]

/-- Entries of a table constructor with the text of the given parts. -/
structure ShowsEntries (d : Nat) (isEmpty : Bool) (docs : List Doc) (parts : List Part) :
    Prop where
  isEmpty_eq : docs.isEmpty = isEmpty
  joined : ShowsParts d (Doc.joinWith ", " docs) parts

theorem ShowsEntries.table
    {d : Nat} {isEmpty : Bool} {docs : List Doc} {parts : List Part}
    (h : ShowsEntries d isEmpty docs parts) :
    ShowsParts d (table docs) (tableParts isEmpty parts) := by
  intro w
  rw [Lua.table, tableParts, h.isEmpty_eq]
  cases isEmpty with
  | true => simp
  | false => simp [h.joined w]

/-- The lines of declarations have their text. -/
theorem render_declarations
    {d w : Nat} {initial : List Part} {text : List Char}
    (h : (Part.docs d initial).render w = text) (lines : List Declaration) :
    (Code.docs d (lines.map fun line => .line (line.parts initial))).render w =
      Declaration.textBehind (d * w) text lines := by
  have hsource (source : Source) :
      (Part.docs d (source.parts initial)).render w = source.text text := by
    cases source with
    | initial => exact h
    | named x => simp [Source.parts, Source.text]
  have hline (line : Declaration) :
      (Part.docs d (line.parts initial)).render w = line.text text := by
    cases line with
    | keep x source => simp [Declaration.parts, Declaration.text, hsource]
    | unpack xs source => simp [Declaration.parts, Declaration.text, hsource]
  induction lines with
  | nil => simp [Declaration.textBehind]
  | cons line lines ih =>
      rw [List.map_cons, Code.docs_cons, Text.Doc.render_append, ih]
      simp [Declaration.textBehind, hline]

/-- Taking a tuple apart shows its declarations. -/
theorem agree_destructure
    {d : Nat} {source : Doc} {initial : List Part} (p : Pattern) (first : Nat)
    (h : ShowsParts d source initial) :
    Agree (ShowsCode d)
      (do
        let next ← get
        let r := destructure d first next source p
        set r.2
        pure (.lineBreak d :: r.1))
      (do
        let next ← get
        let r := declarations first next .initial p
        set r.2
        pure (r.1.map fun line => .line (line.parts initial))) := by
  intro next
  have hinitial (w : Nat) : source.render w = Source.initial.text (source.render w) := rfl
  have hparts (w : Nat) := render_destructure d w (source.render w) p first next (hinitial w)
  refine ⟨fun w => ?_, (hparts 0).2⟩
  refine Eq.trans ?_ (render_declarations (h w).symm _).symm
  rw [Declaration.textBehind_declarations, ← (hparts w).1]
  rfl

section

variable {body : Nat → Printing Doc} {q : Printing (List Code)}

theorem agree_loopBody
    (d : Nat) (label : Bool) (hbody : ∀ d, Agree (ShowsCode d) (body d) q) :
    Agree (fun doc cs => ShowsCode (d + 1) doc (loopCode label cs none))
      (loopBody d label body none) q := by
  cases label with
  | false => exact hbody (d + 1)
  | true => exact (hbody (d + 1)).map_left fun doc cs h w => by simp [loopCode, h w]

theorem agree_loopBody_update
    {γ δ : Type} {S : γ → δ → Prop} {update : Printing Doc} {u : Printing (List Part)}
    {f : Doc → γ} {g : List Code → List Part → δ} (d : Nat) (label : Bool)
    (hbody : ∀ d, Agree (ShowsCode d) (body d) q) (hupdate : Agree (ShowsParts (d + 1)) update u)
    (hfg : ∀ doc cs ps, ShowsCode (d + 1) doc (loopCode label cs (some ps)) → S (f doc) (g cs ps)) :
    Agree S (do
      let doc ← loopBody d label body (some update)
      pure (f doc)) (do
      let cs ← q
      let ps ← u
      pure (g cs ps)) := by
  cases label with
  | false =>
      simp only [loopBody, bind_assoc, pure_bind]
      exact (hbody (d + 1)).bind fun doc cs h => hupdate.map fun doc' ps h' =>
        hfg _ cs ps fun w => by simp [loopCode, h w, h' w]
  | true =>
      simp only [loopBody, bind_assoc, pure_bind]
      exact (hbody (d + 2)).bind fun doc cs h => hupdate.map fun doc' ps h' =>
        hfg _ cs ps fun w => by simp [loopCode, h w, h' w]

end

mutual

/-- An expression shows its parts. -/
theorem agree_expr : (e : Expr) → (d : Nat) → Agree (ShowsParts d) (expr d e) (exprParts e)
  | .literal l, d => by
      rw [expr, exprParts]
      exact .pure fun w => by simp
  | .ident x, d => by
      rw [expr, exprParts]
      exact .pure fun w => by simp
  | .binary l op r, d => by
      rw [expr, exprParts]
      exact (agree_expr l d).bind fun _ _ hl => (agree_expr r d).map fun _ _ hr w => by
        simp [hl w, hr w]
  | .unary op e, d => by
      rw [expr, exprParts]
      exact (agree_expr e d).map fun _ _ he w => by simp [he w]
  | .call f args, d => by
      rw [expr, exprParts]
      refine (agree_expr f d).bind fun _ _ hf => (agree_exprs args d).map fun _ _ hargs w => ?_
      simp [(hf.grouped (isPrefixForm f)) w, hargs.joined w]
  | .methodCall r m args, d => by
      rw [expr, exprParts]
      refine (agree_expr r d).bind fun _ _ hr => (agree_exprs args d).map fun _ _ hargs w => ?_
      simp [(hr.grouped (isPrefixForm r)) w, hargs.joined w]
  | .member o p computed, d => by
      rw [expr, exprParts]
      refine (agree_expr o d).bind fun _ _ ho => (agree_expr p d).map fun _ _ hp w => ?_
      simp [(ho.grouped (isPrefixForm o)) w, (hp.memberAccess computed p) w]
  | .array es, d => by
      rw [expr, exprParts]
      exact (agree_exprs es d).map fun _ _ hes => hes.table
  | .object ps, d => by
      rw [expr, exprParts]
      exact (agree_pairs ps d).map fun _ _ hps => hps.table
  | .function ⟨_, params, body, _⟩, d => by
      rw [expr, exprParts]
      exact (agree_stmts body (d + 1)).map fun _ _ hbody w => by simp [hbody w]
  | .conditional t c a, d => by
      rw [expr, exprParts]
      exact (agree_expr t d).bind fun _ _ ht => (agree_expr c d).bind fun _ _ hc =>
        (agree_expr a d).map fun _ _ ha w => by simp [ht w, hc w, ha w]
  | .assign t v, d => by
      rw [expr, exprParts]
      exact (agree_expr t d).bind fun _ _ ht => (agree_expr v d).map fun _ _ hv w => by
        simp [ht w, hv w]
  | .await e, d => by
      rw [expr, exprParts]
      exact agree_expr e d

theorem agree_exprs :
    (es : List Expr) → (d : Nat) →
      Agree (ShowsEntries d es.isEmpty) (exprs d es) (exprsParts es)
  | [], d => by
      rw [exprs, exprsParts]
      exact .pure ⟨rfl, fun w => by simp [Doc.joinWith]⟩
  | [e], d => by
      rw [exprs, exprs, exprsParts]
      simp only [pure_bind]
      exact (agree_expr e d).map_left fun _ _ he => ⟨rfl, he⟩
  | e :: e' :: es, d => by
      rw [exprs, exprsParts]
      refine (agree_expr e d).bind fun _ _ he => (agree_exprs (e' :: es) d).map fun docs _ hes => ?_
      cases docs with
      | nil => exact absurd hes.isEmpty_eq (by simp)
      | cons doc docs => exact ⟨rfl, fun w => by simp [Doc.joinWith, he w, ← hes.joined w]⟩

theorem agree_pairs :
    (ps : List (String × Expr)) → (d : Nat) →
      Agree (ShowsEntries d ps.isEmpty) (pairs d ps) (pairsParts ps)
  | [], d => by
      rw [pairs, pairsParts]
      exact .pure ⟨rfl, fun w => by simp [Doc.joinWith]⟩
  | [(k, e)], d => by
      rw [pairs, pairs, pairsParts]
      simp only [pure_bind]
      exact (agree_expr e d).map fun _ _ he => ⟨rfl, fun w => by simp [Doc.joinWith, he w]⟩
  | (k, e) :: (k', e') :: ps, d => by
      rw [pairs, pairsParts]
      refine (agree_expr e d).bind fun _ _ he =>
        (agree_pairs ((k', e') :: ps) d).map fun docs _ hps => ?_
      cases docs with
      | nil => exact absurd hps.isEmpty_eq (by simp)
      | cons doc docs => exact ⟨rfl, fun w => by simp [Doc.joinWith, he w, ← hps.joined w]⟩

/-- A statement shows its code. -/
theorem agree_stmt :
    (s : Stmt) → (d : Nat) → (bare : Bool) →
      Agree (ShowsCode d) (stmt d bare s) (stmtCode bare s)
  | .expr e, d, bare => by
      rw [stmt, stmtCode]
      exact (agree_expr e d).map fun _ _ he w => by simp [he w]
  | .declare x none m, d, bare => by
      rw [stmt, stmtCode, initializer, partsBehind]
      exact .pure fun w => by simp
  | .declare x (some e) m, d, bare => by
      rw [stmt, stmtCode, initializer, partsBehind]
      simp only [bind_assoc, pure_bind]
      exact (agree_expr e d).map fun _ _ he w => by simp [he w]
  | .destructure p i, d, bare => by
      rw [stmt, stmtCode]
      refine (Agree.refl _).bind fun first _ hfirst => ?_
      cases hfirst
      exact (agree_expr i d).bind fun _ _ hsource => agree_destructure p first hsource
  | .block b, d, bare => by
      rw [stmt, stmtCode]
      cases bare with
      | true => exact agree_stmts b d
      | false => exact (agree_stmts b (d + 1)).map fun _ _ hb w => by simp [hb w]
  | .ifElse t c a, d, bare => by
      rw [stmt, stmtCode]
      exact (agree_expr t d).bind fun _ _ ht => (agree_stmt c (d + 1) true).bind fun _ _ hc =>
        (agree_else a d).map fun _ _ ha w => by simp [ht w, hc w, ha w]
  | .whileLoop t b, d, bare => by
      rw [stmt, stmtCode]
      exact (agree_expr t d).bind fun _ _ ht => (agree_loopBody d _ (agree_stmt b · true)).map
        fun _ _ hb w => by simp [ht w, hb w]
  | .forLoop i t none b, d, bare => by
      rw [stmt_forLoop, stmtCode, updateParts]
      simp only [pure_bind]
      exact (agree_init i (d + 1)).bind fun _ _ hi => (agree_test t (d + 1)).bind fun _ _ ht =>
        (agree_loopBody (d + 1) _ (agree_stmt b · true)).map fun _ _ hb w => by
          simp [hi w, ht w, hb w]
  | .forLoop i t (some u) b, d, bare => by
      rw [stmt_forLoop, stmtCode, updateParts]
      simp only [bind_assoc, pure_bind]
      exact (agree_init i (d + 1)).bind fun _ _ hi => (agree_test t (d + 1)).bind fun _ _ ht =>
        agree_loopBody_update (d + 1) _ (agree_stmt b · true) (agree_expr u (d + 2))
          fun _ _ _ hb w => by simp [hi w, ht w, hb w]
  | .forEach x i b, d, bare => by
      rw [stmt, stmtCode]
      exact (agree_expr i d).bind fun _ _ hi => (agree_loopBody d _ (agree_stmt b · true)).map
        fun _ _ hb w => by simp [hi w, hb w]
  | .ret none, d, bare => by
      rw [stmt, stmtCode, partsBehind]
      exact .pure fun w => by simp
  | .ret (some e), d, bare => by
      rw [stmt, stmtCode, partsBehind]
      simp only [bind_assoc, pure_bind]
      exact (agree_expr e d).map fun _ _ he w => by simp [he w]
  | .breakLoop, d, bare => by
      rw [stmt, stmtCode]
      exact .pure fun w => by simp
  | .continueLoop, d, bare => by
      rw [stmt, stmtCode]
      exact .pure fun w => by simp
  | .throw e, d, bare => by
      rw [stmt, stmtCode]
      exact (agree_expr e d).map fun _ _ he w => by simp [he w]
  | .tryCatch b p c f, d, bare => by
      rw [stmt_tryCatch, stmtCode]
      refine (Agree.refl _).bind fun n _ hn => ?_
      cases hn
      exact (agree_stmt b (d + 1) true).bind fun _ _ hb =>
        (agree_handler c d _ _ _).bind fun _ _ hc => (agree_finalizer f d).map fun _ _ hf w => by
          simp [protectedCall, onFailed, hb w, hc w, hf w]
  | .function ⟨name, params, body, _⟩, d, bare => by
      rw [stmt, stmtCode]
      exact (agree_stmts body (d + 1)).map fun _ _ hbody w => by simp [hbody w]
  | .holding _, d, bare => by
      rw [stmt, stmtCode]
      exact .pure fun w => by simp

theorem agree_stmts :
    (ss : List Stmt) → (d : Nat) → Agree (ShowsCode d) (stmts d ss) (stmtsCode ss)
  | [], d => by
      rw [stmts, stmtsCode]
      exact .pure fun w => by simp
  | s :: ss, d => by
      rw [stmts, stmtsCode]
      exact (agree_stmt s d false).bind fun _ _ hs => (agree_stmts ss d).map fun _ _ hss w => by
        simp [hs w, hss w]

theorem agree_test :
    (t : Option Expr) → (d : Nat) →
      Agree (ShowsParts d) (optionalDoc d "true" t) (testParts t)
  | none, d => .pure fun w => by simp
  | some t, d => agree_expr t d

theorem agree_init :
    (i : Option Stmt) → (d : Nat) → Agree (ShowsCode d) (initDoc d i) (optionCode false i)
  | none, d => .pure fun w => by simp
  | some i, d => agree_stmt i d false

theorem agree_handler :
    (c : Option Stmt) → (d : Nat) → (ok err param : String) →
      Agree (ShowsCode d) (handlerDoc d ok err param c) (handlerCode ok err param c)
  | none, d, _, _, _ => .pure fun w => by simp
  | some c, d, ok, err, param =>
      (agree_stmt c (d + 2) true).map fun _ _ hc w => by simp [protectedCall, onFailed, hc w]

theorem agree_finalizer :
    (f : Option Stmt) → (d : Nat) → Agree (ShowsCode d) (finalizerDoc d f) (optionCode true f)
  | none, d => .pure fun w => by simp
  | some f, d => agree_stmt f d true

theorem agree_else :
    (a : Option Stmt) → (d : Nat) → Agree (ShowsRest d) (elseBranch d a) (elseCode a)
  | none, d => by
      rw [elseBranch, elseCode]
      exact .pure fun w => by simp
  | some (.ifElse t c a), d => by
      rw [elseBranch, elseCode]
      exact (agree_expr t d).bind fun _ _ ht => (agree_stmt c (d + 1) true).bind fun _ _ hc =>
        (agree_else a d).map fun _ _ ha w => by simp [ht w, hc w, ha w]
  | some (.expr _), d | some (.declare ..), d | some (.destructure ..), d | some (.block _), d
  | some (.whileLoop ..), d | some (.forLoop ..), d | some (.forEach ..), d | some (.ret _), d
  | some .breakLoop, d | some .continueLoop, d | some (.throw _), d | some (.tryCatch ..), d
  | some (.function _), d | some (.holding _), d =>
      (agree_stmt _ (d + 1) true).map fun _ _ hs w => by simp [hs w]

end

/-- The text of the code of a program is what is written for the program. -/
theorem text_code (p : Program) (w : Nat) : Code.text w (code p) = write p w := by
  have hshows : ShowsCode 0 ((stmts 0 p.body).run 0).1 (code p) := (agree_stmts p.body 0 0).1
  have hclose : (Code.docs 0 (code p)).close w = ((stmts 0 p.body).run 0).1.close w := by
    have hcode := (Code.opensLines_docs 0 (code p)).render_newline w []
    have hstmts := ((writeStmts_writes p.body 0).opens 0).render_newline w []
    rw [← hshows w, hstmts] at hcode
    simpa using hcode.symm
  rw [write_eq_renderLines]
  exact String.ext hclose

end Lua

end Bracket
