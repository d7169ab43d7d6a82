import Bracket.Proofs.Target.Chunks

/-!
# Jumps in Lua code

A `continue` is written as a jump to a label of its loop, and a return has to end its block.
For both of them it matters in which block they are written.

The jumps of code come with what their blocks make of them: whether a label is visible, and
whether anything follows in the block.  The sites of a program are its `continue`s and returns
with what stands around them.  The main statement is that the code of a program has one jump
for each site, in the same order, and what it makes of the jump can be told from the site.
-/

namespace Bracket

inductive JumpKind where
  | continues
  | returns
  deriving DecidableEq, Repr

namespace Lua

/-! ## Jumps of code -/

/-- A jump and what its block makes of it. -/
structure Jump where
  kind : JumpKind
  /-- It is inside of a loop body with a label, and no function ends between the two. -/
  labelled : Bool
  /-- Nothing follows it in its block. -/
  last : Bool
  deriving DecidableEq, Repr

/-- The statements end with a label, or with a label and an update behind it. -/
def Code.endsWithLabel (cs : List Code) : Bool :=
  match cs.reverse with
  | .label :: _ => true
  | .line _ :: .label :: _ => true
  | _ => false

mutual

/-- The jumps of a part of a line: those of functions, which see no label outside. -/
def Part.jumps : Part → List Jump
  | .text _ => []
  | .function _ body => Code.jumpsList false true body

def Part.jumpsList : List Part → List Jump
  | [] => []
  | p :: ps => p.jumps ++ Part.jumpsList ps

/-- The jumps of a statement; `labelled` says whether it sees a label, and `last` whether it is
the last one of its block. -/
def Code.jumps (labelled last : Bool) : Code → List Jump
  | .line parts => Part.jumpsList parts
  | .ret value => ⟨.returns, labelled, last⟩ :: Part.jumpsList value
  | .goto => [⟨.continues, labelled, last⟩]
  | .label => []
  | .region body => Code.jumpsList labelled true body
  | .branch test body rest =>
      Part.jumpsList test ++ (Code.jumpsList labelled true body ++ rest.jumps labelled)
  | .loop head body =>
      Part.jumpsList head ++ Code.jumpsList (labelled || Code.endsWithLabel body) true body

/-- The jumps of statements; `closing` says whether their block ends behind them. -/
def Code.jumpsList (labelled closing : Bool) : List Code → List Jump
  | [] => []
  | c :: cs => c.jumps labelled (closing && cs.isEmpty) ++ Code.jumpsList labelled closing cs

def Rest.jumps (labelled : Bool) : Rest → List Jump
  | .done => []
  | .otherwise body => Code.jumpsList labelled true body
  | .branch test body rest =>
      Part.jumpsList test ++ (Code.jumpsList labelled true body ++ rest.jumps labelled)

end

end Lua

/-! ## Sites of a program -/

/-- What stands around a statement. -/
structure Surroundings where
  /-- The statement is in the body of a loop of the same function. -/
  inLoop : Bool
  /-- Inside of that loop it is in the body or in the handler of a statement that catches
  exceptions. -/
  inClosure : Bool
  /-- Inside of that loop it is in the initialiser of a counting loop. -/
  inInit : Bool
  /-- A loop around it, but not around a function or a protected call around it, has a label. -/
  labelled : Bool
  /-- It is the last one of its statements, or the whole body. An initialiser is neither. -/
  last : Bool
  /-- Its statements are the body of a loop, and a label or an update follows in their block. -/
  ahead : Bool
  /-- Its statements are what runs at the end of a statement that catches exceptions. -/
  final : Bool
  deriving DecidableEq, Repr

namespace Surroundings

/-- The statements of a program or a function. -/
def top : Surroundings := ⟨false, false, false, false, true, false, false⟩

/-- The statements of a block of their own. -/
def inBlock (c : Surroundings) : Surroundings :=
  { c with last := true, ahead := false, final := false }

theorem inBlock_inBlock (c : Surroundings) : c.inBlock.inBlock = c.inBlock := rfl

/-- The body of a loop, given whether there are a label and an update.  With both of them the
body gets a block of its own. -/
def inBody (label update : Bool) (c : Surroundings) : Surroundings :=
  ⟨true, false, false, c.labelled || label, true, label != update, false⟩

def asInit (c : Surroundings) : Surroundings :=
  { c with inInit := true, last := false, ahead := false, final := false }

/-- The body or the handler of a statement that catches exceptions. -/
def inGuarded (c : Surroundings) : Surroundings :=
  { c.inBlock with inClosure := true, labelled := false }

def inFinally (c : Surroundings) : Surroundings :=
  { c with last := true, ahead := false, final := true }

/-- A statement with others behind it. -/
def before (rest : List Stmt) (c : Surroundings) : Surroundings :=
  { c with last := c.last && rest.isEmpty }

/-- Nothing is written behind the statement in its block. -/
def closing (c : Surroundings) : Bool := c.last && !(c.ahead || c.final)

@[simp] theorem closing_before
    (rest : List Stmt) (c : Surroundings) :
    (c.before rest).closing = (c.closing && rest.isEmpty) := by
  simp only [closing, before]
  cases c.last <;> cases rest.isEmpty <;> simp

end Surroundings

/-- A `continue` or a return of a program. -/
structure Site where
  kind : JumpKind
  around : Surroundings
  deriving DecidableEq, Repr

mutual

/-- The sites of an expression: those of its functions. -/
def Expr.sites : Expr → List Site
  | .literal _ => []
  | .ident _ => []
  | .binary l _ r => l.sites ++ r.sites
  | .unary _ e => e.sites
  | .call f args => f.sites ++ Expr.sitesList args
  | .methodCall r _ args => r.sites ++ Expr.sitesList args
  | .member o p _ => o.sites ++ p.sites
  | .array es => Expr.sitesList es
  | .object ps => Expr.sitesPairs ps
  | .function f => f.sites
  | .conditional t c a => t.sites ++ (c.sites ++ a.sites)
  | .assign t v => t.sites ++ v.sites
  | .await e => e.sites

def Expr.sitesList : List Expr → List Site
  | [] => []
  | e :: es => e.sites ++ Expr.sitesList es

def Expr.sitesOption : Option Expr → List Site
  | none => []
  | some e => e.sites

def Expr.sitesPairs : List (String × Expr) → List Site
  | [] => []
  | (_, e) :: ps => e.sites ++ Expr.sitesPairs ps

def Func.sites : Func → List Site
  | ⟨_, _, body, _⟩ => Stmt.sitesList .top body

/-- The sites of a statement.  A block in the place of a body is `bare`: its statements have the
surroundings of the body.  Of a scoped statement nothing is written. -/
def Stmt.sites (c : Surroundings) (bare : Bool) : Stmt → List Site
  | .expr e => e.sites
  | .declare _ i _ => Expr.sitesOption i
  | .destructure _ i => i.sites
  | .block b => Stmt.sitesList (if bare then c else c.inBlock) b
  | .ifElse t s a => t.sites ++ (s.sites c.inBlock true ++ Stmt.sitesOption c.inBlock true a)
  | .whileLoop t b => t.sites ++ b.sites (c.inBody (Lua.continuesLoop b) false) true
  | .forLoop i t u b =>
      Stmt.sitesOption c.asInit false i ++ (Expr.sitesOption t ++
        (b.sites (c.inBody (Lua.continuesLoop b) u.isSome) true ++ Expr.sitesOption u))
  | .forEach _ i b => i.sites ++ b.sites (c.inBody (Lua.continuesLoop b) false) true
  | .ret v => ⟨.returns, c⟩ :: Expr.sitesOption v
  | .breakLoop => []
  | .continueLoop => [⟨.continues, c⟩]
  | .throw e => e.sites
  | .tryCatch b _ h f =>
      b.sites c.inGuarded true ++
        (Stmt.sitesOption c.inGuarded true h ++ Stmt.sitesOption c.inFinally true f)
  | .function f => f.sites
  | .holding _ => []

def Stmt.sitesList (c : Surroundings) : List Stmt → List Site
  | [] => []
  | s :: ss => s.sites (c.before ss) false ++ Stmt.sitesList c ss

def Stmt.sitesOption (c : Surroundings) (bare : Bool) : Option Stmt → List Site
  | none => []
  | some s => s.sites c bare

end

/-- The sites of a program. -/
def Program.sites (p : Program) : List Site := Stmt.sitesList .top p.body

namespace Lua

/-- What code makes of a site. -/
def Jump.ofSite (s : Site) : Jump := ⟨s.kind, s.around.labelled, s.around.closing⟩

/-! ## The jumps of parts that are put together -/

@[simp] theorem Part.jumpsList_nil : Part.jumpsList [] = [] := by rw [Part.jumpsList]

@[simp] theorem Part.jumpsList_cons
    (p : Part) (ps : List Part) : Part.jumpsList (p :: ps) = p.jumps ++ Part.jumpsList ps := by
  rw [Part.jumpsList]

@[simp] theorem Part.jumpsList_append
    (ps qs : List Part) : Part.jumpsList (ps ++ qs) = Part.jumpsList ps ++ Part.jumpsList qs := by
  induction ps with
  | nil => simp
  | cons p ps ih => simp [ih]

@[simp] theorem Code.jumpsList_nil
    (labelled closing : Bool) : Code.jumpsList labelled closing [] = [] := by
  rw [Code.jumpsList]

@[simp] theorem Code.jumpsList_cons
    (labelled closing : Bool) (c : Code) (cs : List Code) :
    Code.jumpsList labelled closing (c :: cs) =
      c.jumps labelled (closing && cs.isEmpty) ++ Code.jumpsList labelled closing cs := by
  rw [Code.jumpsList]

theorem Code.jumpsList_append
    (labelled closing : Bool) (cs ds : List Code) :
    Code.jumpsList labelled closing (cs ++ ds) =
      Code.jumpsList labelled (closing && ds.isEmpty) cs ++ Code.jumpsList labelled closing ds := by
  induction cs with
  | nil => simp
  | cons c cs ih =>
      have hempty : (cs ++ ds).isEmpty = (ds.isEmpty && cs.isEmpty) := by
        cases cs <;> cases ds <;> rfl
      simp [ih, hempty, Bool.and_assoc]

attribute [simp] Part.jumps Code.jumps Rest.jumps

@[simp] theorem jumpsList_groupedParts
    (bare : Bool) (ps : List Part) :
    Part.jumpsList (groupedParts bare ps) = Part.jumpsList ps := by
  cases bare <;> simp [groupedParts]

/-- A member whose name stands behind a point is a literal, which has no jumps. -/
theorem jumpsList_accessParts
    {computed : Bool} {property : Expr} {ps : List Part}
    (h : Part.jumpsList ps = property.sites.map Jump.ofSite) :
    Part.jumpsList (accessParts (pointName? computed property) ps) =
      property.sites.map Jump.ofSite := by
  cases hname : pointName? computed property with
  | none => simpa [accessParts] using h
  | some s =>
      cases (pointName?_eq_some hname).1
      simp [accessParts, Expr.sites]

/-- Behind a body that is not in a block of its own, a label or an update follows. -/
theorem Code.jumpsList_loopCode
    (labelled label : Bool) (body : List Code) (update : Option (List Part)) :
    Code.jumpsList labelled true (loopCode label body update) =
      Code.jumpsList labelled (label == update.isSome) body ++
        Part.jumpsList (update.getD []) := by
  cases update <;> cases label <;> simp [loopCode, Code.jumpsList_append]

/-! ## Labels -/

theorem Code.endsWithLabel_of_not_mem
    {cs : List Code} (h : .label ∉ cs) : Code.endsWithLabel cs = false := by
  rw [← List.mem_reverse] at h
  unfold Code.endsWithLabel
  split
  · rename_i heq
    exact absurd (heq ▸ List.mem_cons_self) h
  · rename_i heq
    exact absurd (heq ▸ List.mem_cons_of_mem _ List.mem_cons_self) h
  · rfl

theorem Code.endsWithLabel_append_label
    (cs : List Code) : Code.endsWithLabel (cs ++ [.label]) = true := by
  rw [Code.endsWithLabel, List.reverse_append]
  rfl

/-- The label of a loop is the one that is made for it. -/
theorem Code.endsWithLabel_loopCode
    (label : Bool) {body : List Code} (update : Option (List Part)) (h : .label ∉ body) :
    Code.endsWithLabel (loopCode label body update) = label := by
  cases label with
  | false =>
      refine Code.endsWithLabel_of_not_mem ?_
      cases update <;> simpa [loopCode] using h
  | true =>
      cases update with
      | none => exact Code.endsWithLabel_append_label body
      | some update => rfl

/-- Code without a label among its statements.  Only a body may be empty. -/
structure Code.Plain (bare : Bool) (cs : List Code) : Prop where
  unlabelled : .label ∉ cs
  filled : bare = false → cs ≠ []

mutual

/-- The only labels are those in the bodies of loops. -/
theorem plain_stmtCode :
    (s : Stmt) → (bare : Bool) → Gives (Code.Plain bare) (stmtCode bare s)
  | .block b, true => by
      rw [stmtCode]
      exact fun n => ⟨unlabelled_stmtsCode b n, nofun⟩
  | .block b, false => by
      rw [stmtCode]
      exact .of_rest fun _ => .pure ⟨by simp, by simp⟩
  | .destructure p i, bare => by
      have hlines (first next : Nat) : (declarations first next .initial p).1 ≠ [] := by
        cases p with
        | name x => simp [declarations]
        | tuple slots => simp [declarations]
      rw [stmtCode]
      exact .of_rest fun _ => .of_rest fun _ => .of_rest fun _ => .of_rest fun _ =>
        .pure ⟨by simp, by simp [hlines]⟩
  | .tryCatch b p c f, bare => by
      rw [stmtCode]
      refine .of_rest fun n => .of_rest fun b => (unlabelled_handlerCode c _ _ _).bind fun c hc =>
        (unlabelled_optionCode f true).map fun f hf => ⟨?_, by simp⟩
      simp [protectedCall, onFailed, hc, hf]
  | .forLoop i t u b, bare => by
      rw [stmtCode]
      exact .of_rest fun _ => .of_rest fun _ => .of_rest fun _ => .of_rest fun _ =>
        .pure ⟨by simp, by simp⟩
  | .ifElse t c a, bare => by
      rw [stmtCode]
      exact .of_rest fun _ => .of_rest fun _ => .of_rest fun _ => .pure ⟨by simp, by simp⟩
  | .whileLoop _ _, bare | .forEach _ _ _, bare => by
      rw [stmtCode]
      exact .of_rest fun _ => .of_rest fun _ => .pure ⟨by simp, by simp⟩
  | .expr _, bare | .declare _ _ _, bare | .ret _, bare | .throw _, bare
  | .function ⟨_, _, _, _⟩, bare => by
      rw [stmtCode]
      exact .of_rest fun _ => .pure ⟨by simp, by simp⟩
  | .breakLoop, bare | .continueLoop, bare | .holding _, bare => by
      rw [stmtCode]
      exact .pure ⟨by simp, by simp⟩

theorem unlabelled_stmtsCode :
    (ss : List Stmt) → Gives (fun cs => .label ∉ cs) (stmtsCode ss)
  | [] => by
      rw [stmtsCode]
      exact .pure (by simp)
  | s :: ss => by
      rw [stmtsCode]
      exact (plain_stmtCode s false).bind fun _ hs =>
        (unlabelled_stmtsCode ss).map fun _ hss => by simp [hs.unlabelled, hss]

theorem unlabelled_optionCode :
    (s : Option Stmt) → (bare : Bool) → Gives (fun cs => .label ∉ cs) (optionCode bare s)
  | none, _ => .pure (by simp)
  | some s, bare => fun n => (plain_stmtCode s bare n).unlabelled

theorem unlabelled_handlerCode :
    (c : Option Stmt) → (ok err param : String) →
      Gives (fun cs => .label ∉ cs) (handlerCode ok err param c)
  | none, _, _, _ => .pure (by simp)
  | some c, _, _, _ => .of_rest fun _ => .pure (by simp [onFailed])

end

theorem isEmpty_stmtsCode
    (ss : List Stmt) : Gives (fun cs => cs.isEmpty = ss.isEmpty) (stmtsCode ss) := by
  cases ss with
  | nil =>
      rw [stmtsCode]
      exact .pure rfl
  | cons s ss =>
      rw [stmtsCode]
      refine (plain_stmtCode s false).bind fun cs hs => .of_rest fun _ => .pure ?_
      simpa using fun h => absurd h (hs.filled rfl)

/-! ## The jumps of a program -/

/-- The loop whose body has the given code. -/
theorem jumpsList_loop
    {c : Surroundings} {label : Bool} {sites : List Site} {cs : List Code}
    (update : Option (List Part)) (updates : List Site)
    (hlabel : .label ∉ cs)
    (hbody : Code.jumpsList (c.inBody label update.isSome).labelled
      (c.inBody label update.isSome).closing cs = sites.map Jump.ofSite)
    (hupdate : Part.jumpsList (update.getD []) = updates.map Jump.ofSite) :
    Code.jumpsList (c.labelled || Code.endsWithLabel (loopCode label cs update)) true
        (loopCode label cs update) =
      (sites ++ updates).map Jump.ofSite := by
  have hclosing : (c.inBody label update.isSome).closing = (label == update.isSome) := by
    simp only [Surroundings.closing, Surroundings.inBody]
    cases label <;> cases update.isSome <;> rfl
  rw [hclosing] at hbody
  rw [Code.endsWithLabel_loopCode label update hlabel, Code.jumpsList_loopCode, List.map_append,
    ← hbody, ← hupdate]
  rfl

/-- Of the declarations of a pattern only one has the initial value. -/
theorem jumpsList_declarations
    (labelled closing : Bool) (p : Pattern) (first next : Nat) (initial : List Part) :
    Code.jumpsList labelled closing
        ((declarations first next .initial p).1.map fun line => .line (line.parts initial)) =
      Part.jumpsList initial := by
  have hsource (source : Source) : Part.jumpsList (source.parts initial) =
      if source = .initial then Part.jumpsList initial else [] := by
    cases source <;> simp [Source.parts]
  have hline (line : Declaration) :
      Part.jumpsList (line.parts initial) = Part.jumpsList (line.source.parts initial) := by
    cases line <;> simp [Declaration.parts, Declaration.source]
  have hlines (lines : List Declaration) :
      Code.jumpsList labelled closing (lines.map fun line => .line (line.parts initial)) =
        (List.replicate (lines.countP (·.source = .initial)) (Part.jumpsList initial)).flatten := by
    induction lines with
    | nil => simp
    | cons line lines ih =>
        rw [List.map_cons, Code.jumpsList_cons, Code.jumps, hline, hsource, ih, List.countP_cons]
        by_cases h : line.source = .initial
        · simp [h, List.replicate_succ]
        · simp [h]
  rw [hlines, countP_initial_declarations]
  simp

mutual

/-- The parts of an expression have its jumps. -/
theorem jumps_exprParts :
    (e : Expr) → Gives (fun parts => Part.jumpsList parts = e.sites.map Jump.ofSite) (exprParts e)
  | .literal l => by
      rw [exprParts, Expr.sites]
      exact .pure (by simp)
  | .ident x => by
      rw [exprParts, Expr.sites]
      exact .pure (by simp)
  | .binary l op r => by
      rw [exprParts, Expr.sites]
      exact (jumps_exprParts l).bind fun _ hl => (jumps_exprParts r).map fun _ hr => by
        simp [hl, hr]
  | .unary op e => by
      rw [exprParts, Expr.sites]
      exact (jumps_exprParts e).map fun _ he => by simp [he]
  | .call f args => by
      rw [exprParts, Expr.sites]
      exact (jumps_exprParts f).bind fun _ hf => (jumps_exprsParts args).map fun _ hargs => by
        simp [hf, hargs]
  | .methodCall r m args => by
      rw [exprParts, Expr.sites]
      exact (jumps_exprParts r).bind fun _ hr => (jumps_exprsParts args).map fun _ hargs => by
        simp [hr, hargs]
  | .member o p computed => by
      rw [exprParts, Expr.sites]
      exact (jumps_exprParts o).bind fun _ ho => (jumps_exprParts p).map fun _ hp => by
        simp [ho, jumpsList_accessParts hp]
  | .array es => by
      rw [exprParts, Expr.sites]
      exact (jumps_exprsParts es).map fun _ hes => by
        cases es with
        | nil => simp [tableParts, Expr.sitesList]
        | cons e es => simp [tableParts, hes]
  | .object ps => by
      rw [exprParts, Expr.sites]
      exact (jumps_pairsParts ps).map fun _ hps => by
        cases ps with
        | nil => simp [tableParts, Expr.sitesPairs]
        | cons p ps => simp [tableParts, hps]
  | .function ⟨_, params, body, _⟩ => by
      rw [exprParts, Expr.sites, Func.sites]
      exact (jumps_stmtsCode body .top).map fun _ hbody => by
        rw [← hbody]
        simp [Surroundings.top, Surroundings.closing]
  | .conditional t c a => by
      rw [exprParts, Expr.sites]
      exact (jumps_exprParts t).bind fun _ ht => (jumps_exprParts c).bind fun _ hc =>
        (jumps_exprParts a).map fun _ ha => by simp [ht, hc, ha]
  | .assign t v => by
      rw [exprParts, Expr.sites]
      exact (jumps_exprParts t).bind fun _ ht => (jumps_exprParts v).map fun _ hv => by
        simp [ht, hv]
  | .await e => by
      rw [exprParts, Expr.sites]
      exact jumps_exprParts e

theorem jumps_exprsParts :
    (es : List Expr) →
      Gives (fun parts => Part.jumpsList parts = (Expr.sitesList es).map Jump.ofSite)
        (exprsParts es)
  | [] => by
      rw [exprsParts, Expr.sitesList]
      exact .pure (by simp)
  | [e] => by
      rw [exprsParts, Expr.sitesList, Expr.sitesList, List.append_nil]
      exact jumps_exprParts e
  | e :: e' :: es => by
      rw [exprsParts, Expr.sitesList]
      exact (jumps_exprParts e).bind fun _ he => (jumps_exprsParts (e' :: es)).map fun _ hes => by
        simp [he, hes]

theorem jumps_pairsParts :
    (ps : List (String × Expr)) →
      Gives (fun parts => Part.jumpsList parts = (Expr.sitesPairs ps).map Jump.ofSite)
        (pairsParts ps)
  | [] => by
      rw [pairsParts, Expr.sitesPairs]
      exact .pure (by simp)
  | [(k, e)] => by
      rw [pairsParts, Expr.sitesPairs, Expr.sitesPairs, List.append_nil]
      exact (jumps_exprParts e).map fun _ he => by simp [he]
  | (k, e) :: (k', e') :: ps => by
      rw [pairsParts, Expr.sitesPairs]
      exact (jumps_exprParts e).bind fun _ he =>
        (jumps_pairsParts ((k', e') :: ps)).map fun _ hps => by simp [he, hps]

theorem jumps_partsBehind
    (mark : String) :
    (e : Option Expr) →
      Gives (fun parts => Part.jumpsList parts = (Expr.sitesOption e).map Jump.ofSite)
        (partsBehind mark e)
  | none => by
      rw [partsBehind, Expr.sitesOption]
      exact .pure (by simp)
  | some e => by
      rw [partsBehind, Expr.sitesOption]
      exact (jumps_exprParts e).map fun _ he => by simp [he]

theorem jumps_testParts :
    (e : Option Expr) →
      Gives (fun parts => Part.jumpsList parts = (Expr.sitesOption e).map Jump.ofSite)
        (testParts e)
  | none => by
      rw [testParts, Expr.sitesOption]
      exact .pure (by simp)
  | some e => by
      rw [testParts, Expr.sitesOption]
      exact jumps_exprParts e

theorem jumps_updateParts :
    (e : Option Expr) →
      Gives (fun update => update.isSome = e.isSome ∧
        Part.jumpsList (update.getD []) = (Expr.sitesOption e).map Jump.ofSite) (updateParts e)
  | none => by
      rw [updateParts, Expr.sitesOption]
      exact .pure ⟨rfl, by simp⟩
  | some e => by
      rw [updateParts, Expr.sitesOption]
      exact (jumps_exprParts e).map fun _ he => ⟨rfl, he⟩

/-- The code of a statement has its jumps. -/
theorem jumps_stmtCode :
    (s : Stmt) → (c : Surroundings) → (bare : Bool) →
      Gives (fun code => Code.jumpsList c.labelled c.closing code =
        (s.sites c bare).map Jump.ofSite) (stmtCode bare s)
  | .expr e, c, bare => by
      rw [stmtCode, Stmt.sites]
      exact (jumps_exprParts e).map fun _ he => by simp [he]
  | .declare x i m, c, bare => by
      rw [stmtCode, Stmt.sites]
      exact (jumps_partsBehind _ i).map fun _ hi => by simp [hi]
  | .destructure p i, c, bare => by
      rw [stmtCode, Stmt.sites]
      exact .of_rest fun _ => (jumps_exprParts i).bind fun _ hi => .of_rest fun _ =>
        .of_rest fun _ => .pure ((jumpsList_declarations _ _ _ _ _ _).trans hi)
  | .block b, c, bare => by
      rw [stmtCode, Stmt.sites]
      cases bare with
      | true => exact jumps_stmtsCode b c
      | false =>
          exact (jumps_stmtsCode b c.inBlock).map fun _ hb => by
            simpa [Surroundings.inBlock, Surroundings.closing] using hb
  | .ifElse t s a, c, bare => by
      rw [stmtCode, Stmt.sites]
      refine (jumps_exprParts t).bind fun _ ht => (jumps_stmtCode s c.inBlock true).bind fun _ hs =>
        (jumps_elseCode a c).map fun _ ha => ?_
      rw [List.map_append, List.map_append, ← ht, ← hs, ← ha]
      simp [Surroundings.inBlock, Surroundings.closing]
  | .whileLoop t b, c, bare => by
      rw [stmtCode, Stmt.sites]
      refine (jumps_exprParts t).bind fun _ ht => ((plain_stmtCode b true).and
        (jumps_stmtCode b (c.inBody (continuesLoop b) false) true)).map fun _ ⟨hplain, hb⟩ => ?_
      have hloop := jumpsList_loop none [] hplain.unlabelled hb rfl
      simpa [ht] using hloop
  | .forLoop i t u b, c, bare => by
      rw [stmtCode, Stmt.sites]
      refine (jumps_optionCode i c.asInit false).bind fun _ hi =>
        (jumps_testParts t).bind fun _ ht => ((plain_stmtCode b true).and
        (jumps_stmtCode b (c.inBody (continuesLoop b) u.isSome) true)).bind fun _ ⟨hplain, hb⟩ =>
        (jumps_updateParts u).map fun update ⟨hsome, hu⟩ => ?_
      rw [← hsome] at hb
      have hloop := jumpsList_loop update _ hplain.unlabelled hb hu
      rw [← hsome, List.map_append, List.map_append, ← hi, ← ht, ← hloop]
      simp [Code.jumpsList_append, Surroundings.asInit, Surroundings.closing]
  | .forEach x i b, c, bare => by
      rw [stmtCode, Stmt.sites]
      refine (jumps_exprParts i).bind fun _ hi => ((plain_stmtCode b true).and
        (jumps_stmtCode b (c.inBody (continuesLoop b) false) true)).map fun _ ⟨hplain, hb⟩ => ?_
      have hloop := jumpsList_loop none [] hplain.unlabelled hb rfl
      simpa [hi] using hloop
  | .ret v, c, bare => by
      rw [stmtCode, Stmt.sites]
      exact (jumps_partsBehind _ v).map fun _ hv => by simp [hv, Jump.ofSite]
  | .breakLoop, c, bare => by
      rw [stmtCode, Stmt.sites]
      exact .pure (by simp)
  | .continueLoop, c, bare => by
      rw [stmtCode, Stmt.sites]
      exact .pure (by simp [Jump.ofSite])
  | .throw e, c, bare => by
      rw [stmtCode, Stmt.sites]
      exact (jumps_exprParts e).map fun _ he => by simp [he]
  | .tryCatch b p h f, c, bare => by
      rw [stmtCode, Stmt.sites]
      refine .of_rest fun _ => (jumps_stmtCode b c.inGuarded true).bind fun _ hb =>
        (jumps_handlerCode h c _ _ _).bind fun _ hh =>
        (jumps_optionCode f c.inFinally true).map fun _ hf => ?_
      rw [List.map_append, List.map_append, ← hb, ← hf]
      simp [protectedCall, onFailed, hh, Code.jumpsList_append, Surroundings.inFinally,
        Surroundings.inGuarded, Surroundings.inBlock, Surroundings.closing]
  | .function ⟨name, params, body, _⟩, c, bare => by
      rw [stmtCode, Stmt.sites, Func.sites]
      exact (jumps_stmtsCode body .top).map fun _ hbody => by
        rw [← hbody]
        simp [Surroundings.top, Surroundings.closing]
  | .holding _, c, bare => by
      rw [stmtCode, Stmt.sites]
      exact .pure (by simp)

theorem jumps_stmtsCode :
    (ss : List Stmt) → (c : Surroundings) →
      Gives (fun code => Code.jumpsList c.labelled c.closing code =
        (Stmt.sitesList c ss).map Jump.ofSite) (stmtsCode ss)
  | [], c => by
      rw [stmtsCode, Stmt.sitesList]
      exact .pure (by simp)
  | s :: ss, c => by
      rw [stmtsCode, Stmt.sitesList]
      refine (jumps_stmtCode s (c.before ss) false).bind fun _ hs =>
        ((isEmpty_stmtsCode ss).and (jumps_stmtsCode ss c)).map fun _ ⟨hempty, hss⟩ => ?_
      rw [Code.jumpsList_append, hempty, List.map_append, ← hs, ← hss, Surroundings.closing_before]
      rfl

theorem jumps_optionCode :
    (s : Option Stmt) → (c : Surroundings) → (bare : Bool) →
      Gives (fun code => Code.jumpsList c.labelled c.closing code =
        (Stmt.sitesOption c bare s).map Jump.ofSite) (optionCode bare s)
  | none, c, bare => by
      rw [optionCode, Stmt.sitesOption]
      exact .pure (by simp)
  | some s, c, bare => by
      rw [optionCode, Stmt.sitesOption]
      exact jumps_stmtCode s c bare

/-- A handler is in a function of its own, whatever follows. -/
theorem jumps_handlerCode :
    (h : Option Stmt) → (c : Surroundings) → (ok err param : String) →
      Gives (fun code => ∀ closing, Code.jumpsList c.labelled closing code =
        (Stmt.sitesOption c.inGuarded true h).map Jump.ofSite) (handlerCode ok err param h)
  | none, c, _, _, _ => by
      rw [handlerCode, Stmt.sitesOption]
      exact .pure (by simp)
  | some h, c, _, _, _ => by
      rw [handlerCode, Stmt.sitesOption]
      refine (jumps_stmtCode h c.inGuarded true).map fun _ hh closing => ?_
      rw [← hh]
      simp [protectedCall, onFailed, Surroundings.inGuarded, Surroundings.inBlock,
        Surroundings.closing]

theorem jumps_elseCode :
    (a : Option Stmt) → (c : Surroundings) →
      Gives (fun rest => rest.jumps c.labelled =
        (Stmt.sitesOption c.inBlock true a).map Jump.ofSite) (elseCode a)
  | none, c => by
      rw [elseCode, Stmt.sitesOption]
      exact .pure (by simp)
  | some (.ifElse t s a), c => by
      rw [elseCode, Stmt.sitesOption, Stmt.sites]
      refine (jumps_exprParts t).bind fun _ ht => (jumps_stmtCode s c.inBlock true).bind fun _ hs =>
        (jumps_elseCode a c).map fun _ ha => ?_
      rw [List.map_append, List.map_append, Surroundings.inBlock_inBlock, ← ht, ← hs, ← ha]
      simp [Surroundings.inBlock, Surroundings.closing]
  | some (.expr _), c | some (.declare ..), c | some (.destructure ..), c | some (.block _), c
  | some (.whileLoop ..), c | some (.forLoop ..), c | some (.forEach ..), c | some (.ret _), c
  | some .breakLoop, c | some .continueLoop, c | some (.throw _), c | some (.tryCatch ..), c
  | some (.function _), c | some (.holding _), c =>
      (jumps_stmtCode _ c.inBlock true).map fun _ hs => by
        rw [Stmt.sitesOption, ← hs]
        simp [Surroundings.inBlock, Surroundings.closing]

end

/-- The code of a program has a jump for each site. -/
theorem jumpsList_code
    (p : Program) : Code.jumpsList false true (code p) = p.sites.map Jump.ofSite :=
  jumps_stmtsCode p.body .top 0

end Lua

end Bracket
