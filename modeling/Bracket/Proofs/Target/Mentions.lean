import Bracket.Proofs.Lowering.Nesting
import Bracket.Proofs.Target.TypeScript
import Bracket.Proofs.Tree.Nodes

/-!
# Code that TypeScript text mentions

In front of a counting loop only a declaration or an expression can be written.  Any other
initialisation leaves no text, and everything inside of it is lost.  Nothing else is lost: the
text of a program is that of the program without these initialisations, and it mentions every
variable that is left.
-/

namespace Bracket

namespace TypeScript

open Text (Doc Piece)

/-! ## The code that is shown -/

mutual

/-- The expression without the initialisations that leave no text. -/
def shownExpr : Expr → Expr
  | .literal l => .literal l
  | .ident x => .ident x
  | .binary l op r => .binary (shownExpr l) op (shownExpr r)
  | .unary op e => .unary op (shownExpr e)
  | .call f args => .call (shownExpr f) (shownExprs args)
  | .methodCall r m args => .methodCall (shownExpr r) m (shownExprs args)
  | .member o p computed => .member (shownExpr o) (shownExpr p) computed
  | .array es => .array (shownExprs es)
  | .object ps => .object (shownPairs ps)
  | .function f => .function (shownFunc f)
  | .conditional t c a => .conditional (shownExpr t) (shownExpr c) (shownExpr a)
  | .assign t v => .assign (shownExpr t) (shownExpr v)
  | .await e => .await (shownExpr e)

def shownExprs : List Expr → List Expr
  | [] => []
  | e :: es => shownExpr e :: shownExprs es

def shownPairs : List (String × Expr) → List (String × Expr)
  | [] => []
  | (k, e) :: ps => (k, shownExpr e) :: shownPairs ps

def shownOptional : Option Expr → Option Expr
  | none => none
  | some e => some (shownExpr e)

def shownFunc : Func → Func
  | ⟨name, params, body, isAsync⟩ => ⟨name, params, shownStmts body, isAsync⟩

/-- The statement without the initialisations that leave no text. -/
def shownStmt : Stmt → Stmt
  | .expr e => .expr (shownExpr e)
  | .declare x i m => .declare x (shownOptional i) m
  | .destructure p i => .destructure p (shownExpr i)
  | .block b => .block (shownStmts b)
  | .ifElse t c a => .ifElse (shownExpr t) (shownStmt c) (shownBranch a)
  | .whileLoop t b => .whileLoop (shownExpr t) (shownStmt b)
  | .forLoop i t u b => .forLoop (shownInit i) (shownOptional t) (shownOptional u) (shownStmt b)
  | .forEach x i b => .forEach x (shownExpr i) (shownStmt b)
  | .ret v => .ret (shownOptional v)
  | .breakLoop => .breakLoop
  | .continueLoop => .continueLoop
  | .throw e => .throw (shownExpr e)
  | .tryCatch b p c f => .tryCatch (shownStmt b) p (shownBranch c) (shownBranch f)
  | .function f => .function (shownFunc f)
  | .holding s => .holding s

def shownStmts : List Stmt → List Stmt
  | [] => []
  | s :: ss => shownStmt s :: shownStmts ss

def shownBranch : Option Stmt → Option Stmt
  | none => none
  | some s => some (shownStmt s)

/-- The initialisation of a counting loop, if it is written. -/
def shownInit : Option Stmt → Option Stmt
  | some (.declare x i m) => some (.declare x (shownOptional i) m)
  | some (.expr e) => some (.expr (shownExpr e))
  | _ => none

end

/-- The program without the initialisations that leave no text. -/
def shown (p : Program) : Program := ⟨shownStmts p.body⟩

/-! ## The text shows nothing else -/

theorem isLooseReceiver_shownExpr
    (e : Expr) : isLooseReceiver (shownExpr e) = isLooseReceiver e := by
  cases e <;> simp [shownExpr, isLooseReceiver]

theorem isBlock_shownStmt (s : Stmt) : isBlock (shownStmt s) = isBlock s := by
  cases s <;> simp [shownStmt, isBlock]

/-- A function that returns an expression still does. -/
theorem shownStmts_eq_ret
    {body : List Stmt} {e : Expr} (h : shownStmts body = [.ret (some e)]) :
    ∃ e', body = [.ret (some e')] := by
  cases body with
  | nil => cases h
  | cons s ss =>
      rw [shownStmts, List.cons.injEq] at h
      obtain ⟨hs, hss⟩ := h
      cases ss with
      | cons s' ss => cases hss
      | nil =>
          cases s with
          | ret v =>
              cases v with
              | none => cases hs
              | some v => exact ⟨v, rfl⟩
          | _ => cases hs

theorem expr_member_shown
    {d : Nat} {o p : Expr} (computed : Bool) (ho : expr d (shownExpr o) = expr d o)
    (hp : expr d (shownExpr p) = expr d p) :
    expr d (shownExpr (.member o p computed)) = expr d (.member o p computed) := by
  by_cases hname : computed = false ∧ ∃ s, p = .literal (.string s)
  · obtain ⟨rfl, s, rfl⟩ := hname
    rw [shownExpr, shownExpr, expr, expr, ho]
  · have hother (s : String) (hs : p = .literal (.string s)) (hc : computed = false) : False :=
      hname ⟨hc, s, hs⟩
    have hshown (s : String) (hs : shownExpr p = .literal (.string s)) (hc : computed = false) :
        False := by
      cases p with
      | literal l => exact hother s hs hc
      | _ => cases hs
    rw [shownExpr, expr, expr, ho, hp]
    · exact hother
    · exact hshown

theorem expr_function_shown
    {d : Nat} (name : String) (params : List String) {body : List Stmt} (isAsync : Bool)
    (hreturned : ∀ e, body = [.ret (some e)] → expr d (shownExpr e) = expr d e)
    (hbody : stmts (d + 1) (shownStmts body) = stmts (d + 1) body) :
    expr d (shownExpr (.function ⟨name, params, body, isAsync⟩)) =
      expr d (.function ⟨name, params, body, isAsync⟩) := by
  by_cases harrow : name = "" ∧ ∃ e, body = [.ret (some e)]
  · obtain ⟨rfl, e, rfl⟩ := harrow
    have hret : shownStmts [.ret (some e)] = [.ret (some (shownExpr e))] := rfl
    rw [shownExpr, shownFunc, hret, expr, expr, hreturned e rfl]
  · have hother (e : Expr) (hname : name = "") (he : body = [.ret (some e)]) : False :=
      harrow ⟨hname, e, he⟩
    have hshown (e : Expr) (hname : name = "") (he : shownStmts body = [.ret (some e)]) :
        False := harrow ⟨hname, shownStmts_eq_ret he⟩
    rw [shownExpr, shownFunc, expr, expr, hbody]
    · exact hother
    · exact hshown

theorem elseBranch_eq
    {s : Stmt} (hs : ∀ t c a, s ≠ .ifElse t c a) (d : Nat) :
    elseBranch d (some s) = clauseDoc d " else " (some s) := by
  rw [clauseDoc, elseBranch]
  exact hs

theorem elseBranch_shown_of
    {s : Stmt} (hs : ∀ t c a, s ≠ .ifElse t c a) (h : ∀ d, stmt d (shownStmt s) = stmt d s)
    (d : Nat) : elseBranch d (shownBranch (some s)) = elseBranch d (some s) := by
  have hshown : ∀ t c a, shownStmt s ≠ .ifElse t c a := by
    intro t c a heq
    cases s with
    | ifElse t' c' a' => exact hs t' c' a' rfl
    | _ => cases heq
  rw [shownBranch, elseBranch_eq hs, elseBranch_eq hshown]
  simp only [clauseDoc, h, isBlock_shownStmt]

mutual

/-- What is left out of an expression has no text. -/
theorem expr_shown : (e : Expr) → (d : Nat) → expr d (shownExpr e) = expr d e
  | .literal _, _ | .ident _, _ => rfl
  | .binary l op r, d => by rw [shownExpr, expr, expr, expr_shown l, expr_shown r]
  | .unary op e, d => by rw [shownExpr, expr, expr, expr_shown e]
  | .call f args, d => by rw [shownExpr, expr, expr, expr_shown f, exprs_shown args]
  | .methodCall r m args, d => by
      rw [shownExpr, expr, expr, expr_shown r, exprs_shown args, isLooseReceiver_shownExpr]
  | .member o p computed, d => expr_member_shown computed (expr_shown o d) (expr_shown p d)
  | .array es, d => by rw [shownExpr, expr, expr, exprs_shown es]
  | .object ps, d => by rw [shownExpr, expr, expr, pairs_shown ps]
  | .function ⟨name, params, body, isAsync⟩, d =>
      expr_function_shown name params isAsync (returned_shown body d) (stmts_shown body (d + 1))
  | .conditional t c a, d => by
      rw [shownExpr, expr, expr, expr_shown t, expr_shown c, expr_shown a]
  | .assign t v, d => by rw [shownExpr, expr, expr, expr_shown t, expr_shown v]
  | .await e, d => by rw [shownExpr, expr, expr, expr_shown e]

theorem returned_shown :
    (ss : List Stmt) → (d : Nat) → (e : Expr) → ss = [.ret (some e)] →
      expr d (shownExpr e) = expr d e
  | [.ret (some e)], d, _, rfl => expr_shown e d

theorem exprs_shown : (es : List Expr) → (d : Nat) → exprs d (shownExprs es) = exprs d es
  | [], _ => rfl
  | e :: es, d => by rw [shownExprs, exprs, exprs, expr_shown e, exprs_shown es]

theorem pairs_shown :
    (ps : List (String × Expr)) → (d : Nat) → pairs d (shownPairs ps) = pairs d ps
  | [], _ => rfl
  | (k, e) :: ps, d => by rw [shownPairs, pairs, pairs, expr_shown e, pairs_shown ps]

theorem initializer_shown :
    (i : Option Expr) → (d : Nat) → initializer d (shownOptional i) = initializer d i
  | none, _ => rfl
  | some e, d => by rw [shownOptional, initializer, initializer, expr_shown e]

theorem optional_shown :
    (e : Option Expr) → (d : Nat) → optional d (shownOptional e) = optional d e
  | none, _ => rfl
  | some e, d => by rw [shownOptional, optional, optional, expr_shown e]

/-- What is left out of a statement has no text. -/
theorem stmt_shown : (s : Stmt) → (d : Nat) → stmt d (shownStmt s) = stmt d s
  | .expr e, d => by rw [shownStmt, stmt, stmt, expr_shown e]
  | .declare x i m, d => by rw [shownStmt, stmt, stmt, initializer_shown i]
  | .destructure p i, d => by rw [shownStmt, stmt, stmt, expr_shown i]
  | .block b, d => by rw [shownStmt, stmt, stmt, stmts_shown b]
  | .ifElse t c a, d => by
      simp only [shownStmt, stmt, expr_shown t, stmt_shown c, elseBranch_shown a, isBlock_shownStmt]
  | .whileLoop t b, d => by
      simp only [shownStmt, stmt, expr_shown t, stmt_shown b, isBlock_shownStmt]
  | .forLoop i t u b, d => by
      simp only [shownStmt, stmt, forInit_shown i, optional_shown t, optional_shown u, stmt_shown b,
        isBlock_shownStmt]
  | .forEach x i b, d => by
      simp only [shownStmt, stmt, expr_shown i, stmt_shown b, isBlock_shownStmt]
  | .ret none, _ => rfl
  | .ret (some e), d => by rw [shownStmt, shownOptional, stmt, stmt, expr_shown e]
  | .breakLoop, _ | .continueLoop, _ | .holding _, _ => rfl
  | .throw e, d => by rw [shownStmt, stmt, stmt, expr_shown e]
  | .tryCatch b p c f, d => by
      simp only [shownStmt, stmt_tryCatch, stmt_shown b, clauseDoc_shown _ c, clauseDoc_shown _ f,
        isBlock_shownStmt]
  | .function ⟨name, params, body, isAsync⟩, d => by
      rw [shownStmt, shownFunc, stmt, stmt, stmts_shown body]

theorem stmts_shown : (ss : List Stmt) → (d : Nat) → stmts d (shownStmts ss) = stmts d ss
  | [], _ => rfl
  | s :: ss, d => by rw [shownStmts, stmts, stmts, stmt_shown s, stmts_shown ss]

theorem clauseDoc_shown
    (head : String) :
    (s : Option Stmt) → (d : Nat) → clauseDoc d head (shownBranch s) = clauseDoc d head s
  | none, _ => rfl
  | some s, d => by simp only [shownBranch, clauseDoc, stmt_shown s, isBlock_shownStmt]

theorem elseBranch_shown :
    (s : Option Stmt) → (d : Nat) → elseBranch d (shownBranch s) = elseBranch d s
  | none, _ => rfl
  | some (.ifElse t c a), d => by
      simp only [shownBranch, shownStmt, elseBranch, expr_shown t, stmt_shown c,
        elseBranch_shown a, isBlock_shownStmt]
  | some (.expr _), d | some (.declare ..), d | some (.destructure ..), d | some (.block _), d
  | some (.whileLoop ..), d | some (.forLoop ..), d | some (.forEach ..), d | some (.ret _), d
  | some .breakLoop, d | some .continueLoop, d | some (.throw _), d | some (.tryCatch ..), d
  | some (.function _), d | some (.holding _), d =>
      elseBranch_shown_of (fun _ _ _ h => by cases h) (stmt_shown _) d

theorem forInit_shown :
    (i : Option Stmt) → (d : Nat) → forInit d (shownInit i) = forInit d i
  | some (.declare x i m), d => by rw [shownInit, forInit, forInit, initializer_shown i]
  | some (.expr e), d => expr_shown e d
  | none, _ | some (.destructure ..), _ | some (.block _), _ | some (.ifElse ..), _
  | some (.whileLoop ..), _ | some (.forLoop ..), _ | some (.forEach ..), _ | some (.ret _), _
  | some .breakLoop, _ | some .continueLoop, _ | some (.throw _), _ | some (.tryCatch ..), _
  | some (.function _), _ | some (.holding _), _ => rfl

end

/-! ## The text mentions all that is shown -/

def isIdent : Node → Bool
  | .expr (.ident _) => true
  | _ => false

/-- Every variable of the nodes has a piece of the document. -/
def Mentions (nodes : List Node) (doc : Doc) : Prop :=
  ∀ x, .expr (.ident x) ∈ nodes → Piece.text x ∈ doc

namespace Mentions

variable {n : Node} {ns ns' : List Node} {doc doc' : Doc}

theorem nil : Mentions [] doc := fun _ hx => absurd hx List.not_mem_nil

theorem cons (hn : isIdent n = false) (h : Mentions ns doc) : Mentions (n :: ns) doc := by
  intro x hx
  rcases List.mem_cons.mp hx with rfl | hmem
  · cases hn
  · exact h x hmem

theorem append (h : Mentions ns doc) (h' : Mentions ns' doc) : Mentions (ns ++ ns') doc :=
  fun x hx => (List.mem_append.mp hx).elim (h x) (h' x)

theorem mono (h : Mentions ns doc) (hsub : ∀ piece ∈ doc, piece ∈ doc') : Mentions ns doc' :=
  fun x hx => hsub _ (h x hx)

theorem left (h : Mentions ns doc) : Mentions ns (doc ++ doc') :=
  h.mono fun _ => List.mem_append_left doc'

theorem right (h : Mentions ns doc') : Mentions ns (doc ++ doc') :=
  h.mono fun _ => List.mem_append_right doc

theorem text {s : String} (h : Mentions ns doc) : Mentions ns (.text s :: doc) :=
  h.mono fun _ => List.mem_cons_of_mem _

theorem groupedIf (loose : Bool) (h : Mentions ns doc) : Mentions ns (groupedIf loose doc) := by
  cases loose with
  | false => exact h
  | true => exact .left (.text h)

theorem braces {d : Nat} (h : Mentions ns doc) : Mentions ns (braces d doc) := .left (.text h)

theorem enclosed
    {body : Nat → Doc} (block : Bool) (h : ∀ d, Mentions ns (body d)) (d : Nat) :
    Mentions ns (enclosed d block body) := by
  cases block with
  | true => exact h d
  | false => exact .braces ((h (d + 1)).mono fun _ => List.mem_cons_of_mem _)

end Mentions

theorem mentions_member
    {d : Nat} {o p : Expr} (computed : Bool) (ho : Mentions (shownExpr o).nodes (expr d o))
    (hp : Mentions (shownExpr p).nodes (expr d p)) :
    Mentions (shownExpr (.member o p computed)).nodes (expr d (.member o p computed)) := by
  rw [shownExpr, Expr.nodes]
  refine .cons rfl ?_
  by_cases hname : computed = false ∧ ∃ s, p = .literal (.string s)
  · obtain ⟨rfl, s, rfl⟩ := hname
    rw [shownExpr, Expr.nodes, expr]
    exact .append (.left ho) (.cons rfl .nil)
  · rw [expr]
    · exact .append (.left (.left ho)) (.left (.right (.text hp)))
    · exact fun s hs hc => hname ⟨hc, s, hs⟩

theorem mentions_function
    {d : Nat} (name : String) (params : List String) {body : List Stmt} (isAsync : Bool)
    (hreturned : ∀ e, body = [.ret (some e)] → Mentions (shownExpr e).nodes (expr d e))
    (hbody : Mentions (Stmt.nodesList (shownStmts body)) (stmts (d + 1) body)) :
    Mentions (shownExpr (.function ⟨name, params, body, isAsync⟩)).nodes
      (expr d (.function ⟨name, params, body, isAsync⟩)) := by
  rw [shownExpr, shownFunc, Expr.nodes, Func.nodes]
  refine .cons rfl ?_
  by_cases harrow : name = "" ∧ ∃ e, body = [.ret (some e)]
  · obtain ⟨rfl, e, rfl⟩ := harrow
    rw [expr]
    refine .append (.cons rfl ?_) .nil
    exact .text (hreturned e rfl)
  · rw [expr]
    · exact .text (.braces hbody)
    · exact fun e hname he => harrow ⟨hname, e, he⟩

mutual

/-- The document of an expression mentions all that is shown of it. -/
theorem mentions_expr : (e : Expr) → (d : Nat) → Mentions (shownExpr e).nodes (expr d e)
  | .literal _, _ => .cons rfl .nil
  | .ident x, d => by
      intro y hy
      cases List.mem_singleton.mp hy
      exact List.mem_singleton.mpr rfl
  | .binary l op r, d => by
      have hl := mentions_expr l d
      have hr := mentions_expr r d
      rw [shownExpr, Expr.nodes, expr]
      exact .cons rfl (.append (.left (.left (.text hl))) (.left (.right (.text hr))))
  | .unary op e, d => by
      rw [shownExpr, Expr.nodes, expr]
      exact .cons rfl (.text (mentions_expr e d))
  | .call f args, d => by
      have hf := mentions_expr f d
      have hargs := mentions_exprs args d
      rw [shownExpr, Expr.nodes, expr]
      exact .cons rfl (.append (.left (.left hf)) (.left (.right (.text hargs))))
  | .methodCall r m args, d => by
      have hr := (mentions_expr r d).groupedIf (isLooseReceiver r)
      have hargs := mentions_exprs args d
      rw [shownExpr, Expr.nodes, expr]
      exact .cons rfl (.append (.left (.left hr)) (.left (.right (.text hargs))))
  | .member o p computed, d => mentions_member computed (mentions_expr o d) (mentions_expr p d)
  | .array es, d => by
      rw [shownExpr, Expr.nodes, expr]
      exact .cons rfl (.left (.text (mentions_exprs es d)))
  | .object ps, d => by
      rw [shownExpr, Expr.nodes, expr]
      exact .cons rfl (.left (.text (mentions_pairs ps d)))
  | .function ⟨name, params, body, isAsync⟩, d =>
      mentions_function name params isAsync (mentions_returned body d) (mentions_stmts body (d + 1))
  | .conditional t c a, d => by
      have ht := mentions_expr t d
      have hc := mentions_expr c d
      have ha := mentions_expr a d
      rw [shownExpr, Expr.nodes, expr]
      exact .cons rfl (.append (.left (.left (.left (.text ht))))
        (.append (.left (.left (.right (.text hc)))) (.left (.right (.text ha)))))
  | .assign t v, d => by
      rw [shownExpr, Expr.nodes, expr]
      exact .cons rfl
        (.append (.left (mentions_expr t d)) (.right (.text (mentions_expr v d))))
  | .await e, d => by
      rw [shownExpr, Expr.nodes, expr]
      exact .cons rfl (.text (mentions_expr e d))

theorem mentions_returned :
    (ss : List Stmt) → (d : Nat) → (e : Expr) → ss = [.ret (some e)] →
      Mentions (shownExpr e).nodes (expr d e)
  | [.ret (some e)], d, _, rfl => mentions_expr e d

theorem mentions_exprs :
    (es : List Expr) → (d : Nat) →
      Mentions (Expr.nodesList (shownExprs es)) (Doc.joinWith ", " (exprs d es))
  | [], _ => .nil
  | [e], d => .append (mentions_expr e d) .nil
  | e :: e' :: es, d =>
      .append (.left (mentions_expr e d)) (.right (.text (mentions_exprs (e' :: es) d)))

theorem mentions_pairs :
    (ps : List (String × Expr)) → (d : Nat) →
      Mentions (Expr.nodesPairs (shownPairs ps)) (Doc.joinWith ", " (pairs d ps))
  | [], _ => .nil
  | [(_, e)], d => .append (.text (mentions_expr e d)) .nil
  | (_, e) :: (k, e') :: ps, d =>
      .append (.left (.text (mentions_expr e d)))
        (.right (.text (mentions_pairs ((k, e') :: ps) d)))

theorem mentions_initializer :
    (i : Option Expr) → (d : Nat) →
      Mentions (Expr.nodesOption (shownOptional i)) (initializer d i)
  | none, _ => .nil
  | some e, d => .text (mentions_expr e d)

theorem mentions_optional :
    (e : Option Expr) → (d : Nat) → Mentions (Expr.nodesOption (shownOptional e)) (optional d e)
  | none, _ => .nil
  | some e, d => mentions_expr e d

/-- The document of a statement mentions all that is shown of it. -/
theorem mentions_stmt : (s : Stmt) → (d : Nat) → Mentions (shownStmt s).nodes (stmt d s)
  | .expr e, d => by
      rw [shownStmt, Stmt.nodes, stmt]
      exact .cons rfl (.left (mentions_expr e d))
  | .declare x i m, d => by
      rw [shownStmt, Stmt.nodes, stmt]
      exact .cons rfl (.left (.text (mentions_initializer i d)))
  | .destructure p i, d => by
      rw [shownStmt, Stmt.nodes, stmt]
      exact .cons rfl (.left (.text (mentions_expr i d)))
  | .block b, d => by
      rw [shownStmt, Stmt.nodes, stmt]
      exact .cons rfl (.braces (mentions_stmts b (d + 1)))
  | .ifElse t c a, d => by
      have ht := mentions_expr t d
      have hc := Mentions.enclosed (isBlock c) (mentions_stmt c) d
      have ha := mentions_else a d
      rw [shownStmt, Stmt.nodes, stmt]
      exact .cons rfl (.append (.left (.left (.text ht)))
        (.append (.left (.right (.text hc))) (.right ha)))
  | .whileLoop t b, d => by
      have hb := Mentions.enclosed (isBlock b) (mentions_stmt b) d
      rw [shownStmt, Stmt.nodes, stmt]
      exact .cons rfl (.append (.left (.text (mentions_expr t d))) (.right (.text hb)))
  | .forLoop i t u b, d => by
      have hi := mentions_forInit i d
      have ht := mentions_optional t d
      have hu := mentions_optional u d
      have hb := Mentions.enclosed (isBlock b) (mentions_stmt b) d
      rw [shownStmt, Stmt.nodes, stmt]
      exact .cons rfl (.append (.left (.left (.left (.text hi))))
        (.append (.left (.left (.right (.text ht))))
          (.append (.right (.text hb)) (.left (.right (.text hu))))))
  | .forEach x i b, d => by
      have hb := Mentions.enclosed (isBlock b) (mentions_stmt b) d
      rw [shownStmt, Stmt.nodes, stmt]
      exact .cons rfl (.append (.left (.text (mentions_expr i d))) (.right (.text hb)))
  | .ret none, _ | .breakLoop, _ | .continueLoop, _ | .holding _, _ => .cons rfl .nil
  | .ret (some e), d => by
      rw [shownStmt, Stmt.nodes, stmt]
      exact .cons rfl (.left (.text (mentions_expr e d)))
  | .throw e, d => by
      rw [shownStmt, Stmt.nodes, stmt]
      exact .cons rfl (.left (.text (mentions_expr e d)))
  | .tryCatch b p c f, d => by
      have hb := Mentions.enclosed (isBlock b) (mentions_stmt b) d
      have hc := mentions_clause (catchHead p) c d
      have hf := mentions_clause " finally " f d
      rw [shownStmt, Stmt.nodes, stmt_tryCatch]
      exact .cons rfl
        (.text (.append (.left hb) (.append (.right (.left hc)) (.right (.right hf)))))
  | .function ⟨name, params, body, isAsync⟩, d => by
      rw [shownStmt, shownFunc, Stmt.nodes, Func.nodes, stmt]
      exact .cons rfl (.text (.braces (mentions_stmts body (d + 1))))

theorem mentions_stmts :
    (ss : List Stmt) → (d : Nat) → Mentions (Stmt.nodesList (shownStmts ss)) (stmts d ss)
  | [], _ => .nil
  | s :: ss, d => by
      rw [shownStmts, Stmt.nodesList, stmts]
      exact .append (.left ((mentions_stmt s d).mono fun _ => List.mem_cons_of_mem _))
        (.right (mentions_stmts ss d))

theorem mentions_clause
    (head : String) :
    (s : Option Stmt) → (d : Nat) →
      Mentions (Stmt.nodesOption (shownBranch s)) (clauseDoc d head s)
  | none, _ => .nil
  | some s, d => .text (.enclosed (isBlock s) (mentions_stmt s) d)

theorem mentions_else :
    (s : Option Stmt) → (d : Nat) →
      Mentions (Stmt.nodesOption (shownBranch s)) (elseBranch d s)
  | none, _ => .nil
  | some (.ifElse t c a), d => by
      have ht := mentions_expr t 0
      have hc := Mentions.enclosed (isBlock c) (mentions_stmt c) 0
      have ha := mentions_else a 0
      rw [shownBranch, Stmt.nodesOption, shownStmt, Stmt.nodes, elseBranch]
      exact .cons rfl (.append (.left (.left (.text ht)))
        (.append (.left (.right (.text hc))) (.right ha)))
  | some (.expr _), d | some (.declare ..), d | some (.destructure ..), d | some (.block _), d
  | some (.whileLoop ..), d | some (.forLoop ..), d | some (.forEach ..), d | some (.ret _), d
  | some .breakLoop, d | some .continueLoop, d | some (.throw _), d | some (.tryCatch ..), d
  | some (.function _), d | some (.holding _), d =>
      .text (.enclosed _ (mentions_stmt _) d)

theorem mentions_forInit :
    (i : Option Stmt) → (d : Nat) → Mentions (Stmt.nodesOption (shownInit i)) (forInit d i)
  | some (.declare _ i _), d => .cons rfl (.text (mentions_initializer i d))
  | some (.expr e), d => .cons rfl (mentions_expr e d)
  | none, _ | some (.destructure ..), _ | some (.block _), _ | some (.ifElse ..), _
  | some (.whileLoop ..), _ | some (.forLoop ..), _ | some (.forEach ..), _ | some (.ret _), _
  | some .breakLoop, _ | some .continueLoop, _ | some (.throw _), _ | some (.tryCatch ..), _
  | some (.function _), _ | some (.holding _), _ => .nil

end

/-! ## Programs of which all is shown -/

/-- The initialisation of a counting loop is written. -/
def isShownInit : Option Stmt → Bool
  | none => true
  | some (.declare ..) => true
  | some (.expr _) => true
  | some _ => false

/-- A counting loop has an initialisation that is written, if it has one. -/
def showsInit : Node → Bool
  | .stmt (.forLoop i _ _ _) => isShownInit i
  | _ => true

mutual

theorem shownExpr_eq_self :
    (e : Expr) → (∀ n ∈ e.nodes, showsInit n = true) → shownExpr e = e
  | .literal _, _ | .ident _, _ => rfl
  | .binary l op r, h => by
      simp only [Expr.nodes, List.forall_mem_cons, List.forall_mem_append] at h
      rw [shownExpr, shownExpr_eq_self l h.2.1, shownExpr_eq_self r h.2.2]
  | .unary op e, h => by
      simp only [Expr.nodes, List.forall_mem_cons] at h
      rw [shownExpr, shownExpr_eq_self e h.2]
  | .call f args, h => by
      simp only [Expr.nodes, List.forall_mem_cons, List.forall_mem_append] at h
      rw [shownExpr, shownExpr_eq_self f h.2.1, shownExprs_eq_self args h.2.2]
  | .methodCall r m args, h => by
      simp only [Expr.nodes, List.forall_mem_cons, List.forall_mem_append] at h
      rw [shownExpr, shownExpr_eq_self r h.2.1, shownExprs_eq_self args h.2.2]
  | .member o p computed, h => by
      simp only [Expr.nodes, List.forall_mem_cons, List.forall_mem_append] at h
      rw [shownExpr, shownExpr_eq_self o h.2.1, shownExpr_eq_self p h.2.2]
  | .array es, h => by
      simp only [Expr.nodes, List.forall_mem_cons] at h
      rw [shownExpr, shownExprs_eq_self es h.2]
  | .object ps, h => by
      simp only [Expr.nodes, List.forall_mem_cons] at h
      rw [shownExpr, shownPairs_eq_self ps h.2]
  | .function f, h => by
      simp only [Expr.nodes, List.forall_mem_cons] at h
      rw [shownExpr, shownFunc_eq_self f h.2]
  | .conditional t c a, h => by
      simp only [Expr.nodes, List.forall_mem_cons, List.forall_mem_append] at h
      rw [shownExpr, shownExpr_eq_self t h.2.1, shownExpr_eq_self c h.2.2.1,
        shownExpr_eq_self a h.2.2.2]
  | .assign t v, h => by
      simp only [Expr.nodes, List.forall_mem_cons, List.forall_mem_append] at h
      rw [shownExpr, shownExpr_eq_self t h.2.1, shownExpr_eq_self v h.2.2]
  | .await e, h => by
      simp only [Expr.nodes, List.forall_mem_cons] at h
      rw [shownExpr, shownExpr_eq_self e h.2]

theorem shownExprs_eq_self :
    (es : List Expr) → (∀ n ∈ Expr.nodesList es, showsInit n = true) → shownExprs es = es
  | [], _ => rfl
  | e :: es, h => by
      rw [Expr.nodesList, List.forall_mem_append] at h
      rw [shownExprs, shownExpr_eq_self e h.1, shownExprs_eq_self es h.2]

theorem shownPairs_eq_self :
    (ps : List (String × Expr)) → (∀ n ∈ Expr.nodesPairs ps, showsInit n = true) →
      shownPairs ps = ps
  | [], _ => rfl
  | (k, e) :: ps, h => by
      rw [Expr.nodesPairs, List.forall_mem_append] at h
      rw [shownPairs, shownExpr_eq_self e h.1, shownPairs_eq_self ps h.2]

theorem shownOptional_eq_self :
    (e : Option Expr) → (∀ n ∈ Expr.nodesOption e, showsInit n = true) → shownOptional e = e
  | none, _ => rfl
  | some e, h => congrArg some (shownExpr_eq_self e h)

theorem shownFunc_eq_self :
    (f : Func) → (∀ n ∈ f.nodes, showsInit n = true) → shownFunc f = f
  | ⟨_, _, body, _⟩, h => by rw [shownFunc, shownStmts_eq_self body h]

theorem shownStmt_eq_self :
    (s : Stmt) → (∀ n ∈ s.nodes, showsInit n = true) → shownStmt s = s
  | .expr e, h => by
      simp only [Stmt.nodes, List.forall_mem_cons] at h
      rw [shownStmt, shownExpr_eq_self e h.2]
  | .declare x i m, h => by
      simp only [Stmt.nodes, List.forall_mem_cons] at h
      rw [shownStmt, shownOptional_eq_self i h.2]
  | .destructure p i, h => by
      simp only [Stmt.nodes, List.forall_mem_cons] at h
      rw [shownStmt, shownExpr_eq_self i h.2]
  | .block b, h => by
      simp only [Stmt.nodes, List.forall_mem_cons] at h
      rw [shownStmt, shownStmts_eq_self b h.2]
  | .ifElse t c a, h => by
      simp only [Stmt.nodes, List.forall_mem_cons, List.forall_mem_append] at h
      rw [shownStmt, shownExpr_eq_self t h.2.1, shownStmt_eq_self c h.2.2.1,
        shownBranch_eq_self a h.2.2.2]
  | .whileLoop t b, h => by
      simp only [Stmt.nodes, List.forall_mem_cons, List.forall_mem_append] at h
      rw [shownStmt, shownExpr_eq_self t h.2.1, shownStmt_eq_self b h.2.2]
  | .forLoop i t u b, h => by
      simp only [Stmt.nodes, List.forall_mem_cons, List.forall_mem_append] at h
      rw [shownStmt, shownInit_eq_self i h.1 h.2.1, shownOptional_eq_self t h.2.2.1,
        shownOptional_eq_self u h.2.2.2.2, shownStmt_eq_self b h.2.2.2.1]
  | .forEach x i b, h => by
      simp only [Stmt.nodes, List.forall_mem_cons, List.forall_mem_append] at h
      rw [shownStmt, shownExpr_eq_self i h.2.1, shownStmt_eq_self b h.2.2]
  | .ret v, h => by
      simp only [Stmt.nodes, List.forall_mem_cons] at h
      rw [shownStmt, shownOptional_eq_self v h.2]
  | .breakLoop, _ | .continueLoop, _ | .holding _, _ => rfl
  | .throw e, h => by
      simp only [Stmt.nodes, List.forall_mem_cons] at h
      rw [shownStmt, shownExpr_eq_self e h.2]
  | .tryCatch b p c f, h => by
      simp only [Stmt.nodes, List.forall_mem_cons, List.forall_mem_append] at h
      rw [shownStmt, shownStmt_eq_self b h.2.1, shownBranch_eq_self c h.2.2.1,
        shownBranch_eq_self f h.2.2.2]
  | .function f, h => by
      simp only [Stmt.nodes, List.forall_mem_cons] at h
      rw [shownStmt, shownFunc_eq_self f h.2]

theorem shownStmts_eq_self :
    (ss : List Stmt) → (∀ n ∈ Stmt.nodesList ss, showsInit n = true) → shownStmts ss = ss
  | [], _ => rfl
  | s :: ss, h => by
      rw [Stmt.nodesList, List.forall_mem_append] at h
      rw [shownStmts, shownStmt_eq_self s h.1, shownStmts_eq_self ss h.2]

theorem shownBranch_eq_self :
    (s : Option Stmt) → (∀ n ∈ Stmt.nodesOption s, showsInit n = true) → shownBranch s = s
  | none, _ => rfl
  | some s, h => congrArg some (shownStmt_eq_self s h)

theorem shownInit_eq_self :
    (i : Option Stmt) → isShownInit i = true → (∀ n ∈ Stmt.nodesOption i, showsInit n = true) →
      shownInit i = i
  | none, _, _ => rfl
  | some (.declare _ i _), _, h => by
      simp only [Stmt.nodesOption, Stmt.nodes, List.forall_mem_cons] at h
      rw [shownInit, shownOptional_eq_self i h.2]
  | some (.expr e), _, h => by
      simp only [Stmt.nodesOption, Stmt.nodes, List.forall_mem_cons] at h
      rw [shownInit, shownExpr_eq_self e h.2]

end

/-! ## The text of a program -/

theorem infix_render
    {s : String} {doc : Doc} (h : .text s ∈ doc) (w : Nat) : s.toList <:+: doc.render w := by
  obtain ⟨before, after, rfl⟩ := List.append_of_mem h
  rw [Doc.render_append, Doc.render_text, ← List.append_assoc]
  exact List.infix_append _ _ _

theorem write_shown (p : Program) (w : Nat) : write (shown p) w = write p w := by
  rw [write_eq_renderLines, write_eq_renderLines, lines, lines, shown, stmts_shown]

theorem infix_write
    {p : Program} {x : String} (h : .expr (.ident x) ∈ (shown p).nodes) (w : Nat) :
    x.toList <:+: (write p w).toList := by
  have hputs := writeStmts_puts p.body 0
  have hmem := mentions_stmts p.body 0 x h
  rw [write, hputs.puts.textOf_eq, String.toList_ofList]
  rcases hputs.opens with hempty | ⟨depth, rest, hdoc⟩
  · rw [hempty] at hmem
    exact absurd hmem List.not_mem_nil
  · rw [hdoc] at hmem ⊢
    rw [Doc.close_lineBreak]
    have hrest : .text x ∈ rest := by simpa using hmem
    exact (infix_render hrest w).trans (List.infix_append _ _ _)

/-- A counting loop whose initialisation declares its variable. -/
def countingLoop : Program :=
  ⟨[.forLoop (some (.declare "i" (some (.ident "start")) true)) none none (.block [])]⟩

/-- The text mentions every variable outside of the initialisations that leave no text, and it
depends on nothing inside of them.  If there are none, it mentions all variables. -/
theorem write_mentions
    (p : Program) (w : Nat) :
    (∀ x, .expr (.ident x) ∈ (shown p).nodes → x.toList <:+: (write p w).toList) ∧
      write (shown p) w = write p w ∧
      ((∀ n ∈ p.nodes, showsInit n = true) → shown p = p) := by
  refine ⟨fun x hx => infix_write hx w, write_shown p w, fun h => ?_⟩
  rw [shown, shownStmts_eq_self p.body h]

theorem write_mentions_of_declaration :
    (∀ n ∈ countingLoop.nodes, showsInit n = true) ∧
      "start".toList <:+: (write countingLoop 2).toList := by
  have hshown : ∀ n ∈ countingLoop.nodes, showsInit n = true := by
    simp [countingLoop, Program.nodes, Stmt.nodesList, Stmt.nodes, Stmt.nodesOption,
      Expr.nodesOption, Expr.nodes, showsInit, isShownInit]
  obtain ⟨hmentions, -, heq⟩ := write_mentions countingLoop 2
  rw [heq hshown] at hmentions
  refine ⟨hshown, hmentions "start" ?_⟩
  simp [countingLoop, Program.nodes, Stmt.nodesList, Stmt.nodes, Stmt.nodesOption,
    Expr.nodesOption, Expr.nodes]

/-- A counting loop whose initialisation takes a value apart. -/
def unpackingLoop : Program :=
  ⟨[.forLoop (some (.destructure (.name "file") (.call (.ident "acquire") []))) none none
    (.block [])]⟩

/-- The acquisition in front of a loop is lost. -/
theorem write_loses_acquisition :
    ∃ p : Program, Stmt.hasScopedList p.body = false ∧
      ∃ x, .expr (.ident x) ∈ p.nodes ∧ ∀ w, ¬ x.toList <:+: (write p w).toList := by
  have hnode : .expr (.ident "acquire") ∈ unpackingLoop.nodes := by
    simp [unpackingLoop, Program.nodes, Stmt.nodesList, Stmt.nodes, Stmt.nodesOption, Expr.nodes]
  refine ⟨unpackingLoop, by decide, "acquire", hnode, fun w h => ?_⟩
  have htext : (write unpackingLoop w).toList = "for (; ; ) \x7b\n\x7d\n".toList := by
    rw [write_eq_renderLines]
    simp [unpackingLoop, lines, stmts, stmt, forInit, optional, enclosed, isBlock, braces,
      Doc.lines, Doc.linesFrom, Text.renderLines, Text.Line.render]
  have hletter : 'q' ∈ (write unpackingLoop w).toList := h.subset (by decide)
  rw [htext] at hletter
  exact absurd hletter (by decide)

end TypeScript

end Bracket
