import Bracket.Proofs.Double.Numerals
import Bracket.Proofs.Target.Lua
import Bracket.Proofs.Target.Printing
import Bracket.Proofs.Target.TypeScript
import Bracket.Proofs.Text.Outline
import Bracket.Proofs.Tree.Nodes
import Bracket.Text.Identifier

/-!
# Closed code

What is written for an expression or a statement opens and closes its own brackets only, and it
ends outside of string literals, if the names that stand in the code as they are have no brackets
or quotes in them.  This holds for Lua and for TypeScript.
-/

namespace Bracket

open Text (Doc Nest DocNest Shows commaSeparated isPlainIdentifier isDollarIdentifier nest_append)

theorem Double.shows_text
    (range : WholeRange) (hzero : range.covers 0 = true) (d : Double) :
    Shows (d.text range).toList (d.text range).toList := by
  obtain ⟨body, htext, -, hbody⟩ := d.toList_text range hzero
  have hflat : ∀ c ∈ body, Text.isFlat c = true :=
    fun c hc => Text.isFlat_of (hbody c hc) (by decide)
  rw [htext]
  refine Text.shows_of_isFlat ?_
  cases d.isNegative with
  | false => exact hflat
  | true => exact List.forall_mem_cons.mpr ⟨by decide, hflat⟩

namespace Lua

/-! ## Names and literals of Lua -/

/-- A character of a plain name. -/
def isWord (c : Char) : Bool := c.isAlphanum || c == '_'

theorem isFlat_of_isWord {c : Char} (h : isWord c = true) : Text.isFlat c = true :=
  Text.isFlat_of h (by decide)

theorem isWord_of_mem
    {x : String} (h : isPlainIdentifier x = true) : ∀ c ∈ x.toList, isWord c = true := by
  refine Text.part_of_isSpelled h fun c hc => ?_
  rw [Bool.or_eq_true] at hc
  rw [isWord, Bool.or_eq_true]
  exact hc.imp_left fun halpha => by simp [Char.isAlphanum, halpha]

theorem shows_name {x : String} (h : isPlainIdentifier x = true) : Shows x.toList x.toList :=
  Text.shows_of_isFlat fun c hc => isFlat_of_isWord (isWord_of_mem h c hc)

theorem nest_name {x : String} (h : isPlainIdentifier x = true) : Nest 0 0 x.toList :=
  (shows_name h).nest

theorem nest_literal (l : Literal) : Nest 0 0 (literal l).toList := by
  cases l with
  | null => decide
  | bool value => cases value <;> decide
  | number d => exact (d.shows_text _ (by decide)).nest
  | string s => exact (Text.shows_quoted s).nest

theorem nest_key (k : String) : Nest 0 0 (key k).toList := by
  unfold key
  split
  · rename_i h
    exact nest_name h
  · exact nest_append (nest_append (by decide : Nest 0 1 "[".toList)
      (Text.shows_quoted k).nest.deeper) (by decide)

theorem nest_repr (n : Nat) : Nest 0 0 n.repr.toList := by
  refine (Text.shows_of_isFlat fun c hc => ?_).nest
  have hdigit : c.isDigit = true := by
    rw [Nat.repr, String.toList_ofList] at hc
    exact Nat.isDigit_of_mem_toDigits (by decide) (by decide) hc
  exact Text.isFlat_of hdigit (by decide)

/-- A made-up local variable. -/
theorem nest_numbered
    {role : String} (hrole : Nest 0 0 role.toList) (n : Nat) : Nest 0 0 (role ++ n.repr).toList :=
  nest_append hrole (nest_repr n)

theorem nest_params
    {before after : String} {params : List String} {i j k : Nat}
    (hbefore : Nest i j before.toList) (h : ∀ x ∈ params, isPlainIdentifier x = true)
    (hafter : Nest j k after.toList) :
    Nest i k (before ++ commaSeparated params ++ after).toList :=
  nest_append (nest_append hbefore (Text.nest_commaSeparated fun x hx => nest_name (h x hx)))
    hafter

theorem nest_binaryOp (op : BinaryOp) : Nest 0 0 (" " ++ binaryOp op ++ " ").toList := by
  cases op <;> decide

/-! ## Lua code -/

section Rules

variable {doc : Doc} {docs : List Doc}

theorem docNest_end (d : Nat) : DocNest 0 0 [.lineBreak d, .text "end"] :=
  .lineBreak (.text (by decide) .nil)

theorem docNest_grouped (bare : Bool) (h : DocNest 0 0 doc) : DocNest 0 0 (grouped bare doc) := by
  cases bare with
  | true => exact h
  | false => exact .enclosed (by decide) h (by decide)

theorem docNest_memberAccess
    (computed : Bool) (property : Expr) (h : DocNest 0 0 doc) :
    DocNest 0 0 (memberAccess computed property doc) := by
  rw [memberAccess_eq]
  cases hname : pointName? computed property with
  | none => exact .enclosed (by decide) h (by decide)
  | some s =>
      exact .text (nest_append (by decide) (nest_name (pointName?_eq_some hname).2)) .nil

theorem docNest_table (h : ∀ doc ∈ docs, DocNest 0 0 doc) : DocNest 0 0 (table docs) := by
  unfold table
  split
  · exact .text (by decide) .nil
  · exact .enclosed (by decide) (.joinWith ", " (by decide) h) (by decide)

theorem docNest_args
    (h : ∀ doc ∈ docs, DocNest 0 0 doc) :
    DocNest 0 0 (.text "(" :: Doc.joinWith ", " docs ++ [.text ")"]) :=
  .enclosed (by decide) (.joinWith ", " (by decide) h) (by decide)

end Rules

/-- An error that was not handled is raised again. -/
theorem docNest_rethrow
    {ok err : String} (hok : Nest 0 0 ok.toList) (herr : Nest 0 0 err.toList) (d : Nat) :
    DocNest 0 0 [.lineBreak d, .text ("if not " ++ ok ++ " then"),
      .lineBreak (d + 1), .text ("error(" ++ err ++ ", 0)"), .lineBreak d, .text "end"] := by
  have htest : Nest 0 0 ("if not " ++ ok ++ " then").toList :=
    nest_append (nest_append (by decide) hok) (by decide)
  have herror : Nest 0 0 ("error(" ++ err ++ ", 0)").toList :=
    nest_append (nest_append (by decide : Nest 0 1 "error(".toList) herr.deeper) (by decide)
  exact .lineBreak (.text htest (.lineBreak (.text herror (docNest_end d))))

theorem nest_slotNames :
    (ps : List Pattern) → (first : Nat) →
      (∀ x ∈ Pattern.namesList ps, isPlainIdentifier x = true) →
      ∀ x ∈ slotNames first ps, Nest 0 0 x.toList
  | [], _, _ => fun _ h => absurd h List.not_mem_nil
  | .name x :: ps, first, h => by
      rw [Pattern.namesList, Pattern.names, List.forall_mem_append] at h
      rw [slotNames]
      exact List.forall_mem_cons.mpr
        ⟨nest_name (h.1 x List.mem_cons_self), nest_slotNames ps first h.2⟩
  | .tuple slots :: ps, first, h => by
      rw [Pattern.namesList, List.forall_mem_append] at h
      rw [slotNames]
      exact List.forall_mem_cons.mpr
        ⟨nest_numbered (by decide) first, nest_slotNames ps (first + 1) h.2⟩

mutual

/-- Declarations that take a value apart are closed. -/
theorem docNest_destructure
    {d : Nat} :
    (p : Pattern) → (first next : Nat) → (source : Doc) →
      (∀ x ∈ p.names, isPlainIdentifier x = true) → DocNest 0 0 source →
      DocNest 0 0 (destructure d first next source p).1
  | .name x, first, next, source, hnames, hsource => by
      have hx : Nest 0 0 ("local " ++ x ++ " = ").toList :=
        nest_append (nest_append (by decide) (nest_name (hnames x (by simp [Pattern.names]))))
          (by decide)
      rw [destructure]
      exact .text hx hsource
  | .tuple slots, first, next, source, hnames, hsource => by
      rw [Pattern.names] at hnames
      have hslots : Nest 0 1
          ("local " ++ commaSeparated (slotNames first slots) ++ " = table.unpack(").toList :=
        nest_append (nest_append (by decide : Nest 0 0 "local ".toList)
          (Text.nest_commaSeparated (nest_slotNames slots first hnames))) (by decide)
      rw [destructure]
      exact (DocNest.text hslots hsource.deeper).append
        (.text (by decide) (docNest_destructureNested slots first next hnames))

theorem docNest_destructureNested
    {d : Nat} :
    (ps : List Pattern) → (first next : Nat) →
      (∀ x ∈ Pattern.namesList ps, isPlainIdentifier x = true) →
      DocNest 0 0 (destructureNested d first next ps).1
  | [], first, next, _ => by
      rw [destructureNested]
      exact .nil
  | .name x :: ps, first, next, h => by
      rw [Pattern.namesList, List.forall_mem_append] at h
      rw [destructureNested]
      exact docNest_destructureNested ps first next h.2
  | .tuple slots :: ps, first, next, h => by
      rw [Pattern.namesList, List.forall_mem_append] at h
      have hsource : DocNest 0 0 [.text (slotName first)] :=
        .text (nest_numbered (by decide) first) .nil
      rw [destructureNested]
      exact (DocNest.lineBreak (docNest_destructure (.tuple slots) _ _ _ h.1 hsource)).append
        (docNest_destructureNested ps _ _ h.2)

end

theorem gives_loopBody
    {d : Nat} {label : Bool} {body : Nat → Printing Doc} {update : Option (Printing Doc)}
    (hbody : ∀ d, Gives (DocNest 0 0) (body d))
    (hupdate : ∀ p ∈ update, Gives (DocNest 0 0) p) :
    Gives (DocNest 0 0) (loopBody d label body update) := by
  have hlabel : DocNest 0 0 [.lineBreak (d + 1), .text "::continue::"] :=
    .lineBreak (.text (by decide) .nil)
  cases update with
  | none =>
      cases label with
      | false => exact hbody (d + 1)
      | true => exact (hbody (d + 1)).map fun _ hb => hb.append hlabel
  | some update =>
      have hupdate := hupdate update rfl
      cases label with
      | false =>
          exact (hbody (d + 1)).bind fun _ hb => hupdate.map fun _ hu => hb.append (.lineBreak hu)
      | true =>
          refine (hbody (d + 2)).bind fun _ hb => hupdate.map fun _ hu => ?_
          have hregion : DocNest 0 0
              [.lineBreak (d + 1), .text "end", .lineBreak (d + 1), .text "::continue::",
                .lineBreak (d + 1)] :=
            (docNest_end (d + 1)).append (hlabel.append (.lineBreak .nil))
          exact ((DocNest.lineBreak (.text (by decide) hb)).append hregion).append hu

mutual

/-- The document of an expression is closed. -/
theorem gives_expr :
    (e : Expr) → PlainNames e.nodes → (d : Nat) → Gives (DocNest 0 0) (expr d e)
  | .literal l, _, d => by
      rw [expr]
      exact .pure (.text (nest_literal l) .nil)
  | .ident x, h, d => by
      rw [Expr.nodes, plainNames_cons] at h
      rw [expr]
      exact .pure (.text (nest_name (h.1 x List.mem_cons_self)) .nil)
  | .binary l op r, h, d => by
      rw [Expr.nodes, plainNames_cons, plainNames_append] at h
      rw [expr]
      exact (gives_expr l h.2.1 d).bind fun _ hl => (gives_expr r h.2.2 d).map fun _ hr =>
        ((DocNest.text (by decide : Nest 0 1 "(".toList) hl.deeper).append
          (.text (nest_binaryOp op).deeper hr.deeper)).append (.text (by decide) .nil)
  | .unary op e, h, d => by
      rw [Expr.nodes, plainNames_cons] at h
      rw [expr]
      exact (gives_expr e h.2 d).map fun _ he => .text (by cases op <;> decide) he
  | .call f args, h, d => by
      rw [Expr.nodes, plainNames_cons, plainNames_append] at h
      rw [expr]
      exact (gives_expr f h.2.1 d).bind fun _ hf => (gives_exprs args h.2.2 d).map fun _ hargs =>
        by simpa using (docNest_grouped _ hf).append (docNest_args hargs)
  | .methodCall r m args, h, d => by
      rw [Expr.nodes, plainNames_cons, plainNames_append] at h
      have hm : Nest 0 0 (":" ++ m).toList :=
        nest_append (by decide) (nest_name (h.1 m List.mem_cons_self))
      rw [expr]
      exact (gives_expr r h.2.1 d).bind fun _ hr => (gives_exprs args h.2.2 d).map fun _ hargs =>
        by simpa using (docNest_grouped _ hr).append (.text hm (docNest_args hargs))
  | .member o p computed, h, d => by
      rw [Expr.nodes, plainNames_cons, plainNames_append] at h
      rw [expr]
      exact (gives_expr o h.2.1 d).bind fun _ ho => (gives_expr p h.2.2 d).map fun _ hp =>
        (docNest_grouped _ ho).append (docNest_memberAccess computed p hp)
  | .array es, h, d => by
      rw [Expr.nodes, plainNames_cons] at h
      rw [expr]
      exact (gives_exprs es h.2 d).map fun _ hes => docNest_table hes
  | .object ps, h, d => by
      rw [Expr.nodes, plainNames_cons] at h
      rw [expr]
      exact (gives_pairs ps h.2 d).map fun _ hps => docNest_table hps
  | .function ⟨name, params, body, isAsync⟩, h, d => by
      rw [Expr.nodes, plainNames_cons, Func.nodes] at h
      have hhead : Nest 0 0 ("function(" ++ commaSeparated params ++ ")").toList :=
        nest_params (by decide : Nest 0 1 "function(".toList) h.1 (by decide)
      rw [expr]
      exact (gives_stmts body h.2 (d + 1)).map fun _ hbody =>
        (DocNest.text hhead hbody).append (docNest_end d)
  | .conditional t c a, h, d => by
      rw [Expr.nodes, plainNames_cons, plainNames_append, plainNames_append] at h
      rw [expr]
      exact (gives_expr t h.2.1 d).bind fun _ ht => (gives_expr c h.2.2.1 d).bind fun _ hc =>
        (gives_expr a h.2.2.2 d).map fun _ ha =>
          (((DocNest.text (by decide : Nest 0 1 "(".toList) ht.deeper).append
            (.text (by decide) hc.deeper)).append (.text (by decide) ha.deeper)).append
              (.text (by decide) .nil)
  | .assign t v, h, d => by
      rw [Expr.nodes, plainNames_cons, plainNames_append] at h
      rw [expr]
      exact (gives_expr t h.2.1 d).bind fun _ ht => (gives_expr v h.2.2 d).map fun _ hv =>
        ht.append (.text (by decide) hv)
  | .await e, h, d => by
      rw [Expr.nodes, plainNames_cons] at h
      rw [expr]
      exact gives_expr e h.2 d

theorem gives_exprs :
    (es : List Expr) → PlainNames (Expr.nodesList es) → (d : Nat) →
      Gives (fun docs => ∀ doc ∈ docs, DocNest 0 0 doc) (exprs d es)
  | [], _, d => by
      rw [exprs]
      exact .pure fun _ h => absurd h List.not_mem_nil
  | e :: es, h, d => by
      rw [Expr.nodesList, plainNames_append] at h
      rw [exprs]
      exact (gives_expr e h.1 d).bind fun _ he => (gives_exprs es h.2 d).map fun _ hes =>
        List.forall_mem_cons.mpr ⟨he, hes⟩

theorem gives_pairs :
    (ps : List (String × Expr)) → PlainNames (Expr.nodesPairs ps) → (d : Nat) →
      Gives (fun docs => ∀ doc ∈ docs, DocNest 0 0 doc) (pairs d ps)
  | [], _, d => by
      rw [pairs]
      exact .pure fun _ h => absurd h List.not_mem_nil
  | (k, e) :: ps, h, d => by
      have hk : Nest 0 0 (key k ++ " = ").toList := nest_append (nest_key k) (by decide)
      rw [Expr.nodesPairs, plainNames_append] at h
      rw [pairs]
      exact (gives_expr e h.1 d).bind fun _ he => (gives_pairs ps h.2 d).map fun _ hps =>
        List.forall_mem_cons.mpr ⟨.text hk he, hps⟩

theorem gives_initializer :
    (i : Option Expr) → PlainNames (Expr.nodesOption i) → (d : Nat) →
      Gives (DocNest 0 0) (initializer d i)
  | none, _, _ => .pure .nil
  | some e, h, d => (gives_expr e h d).map fun _ he => .text (by decide) he

theorem gives_optionalDoc
    {default : String} (hdefault : Nest 0 0 default.toList) :
    (e : Option Expr) → PlainNames (Expr.nodesOption e) → (d : Nat) →
      Gives (DocNest 0 0) (optionalDoc d default e)
  | none, _, _ => .pure (.text hdefault .nil)
  | some e, h, d => gives_expr e h d

theorem gives_update :
    (u : Option Expr) → PlainNames (Expr.nodesOption u) → (d : Nat) →
      ∀ p ∈ u.map (expr d), Gives (DocNest 0 0) p
  | none, _, _ => fun _ hp => by cases hp
  | some e, h, d => fun _ hp => by
      cases hp
      exact gives_expr e h d

/-- The document of a statement is closed. -/
theorem gives_stmt :
    (s : Stmt) → PlainNames s.nodes → (d : Nat) → (bare : Bool) →
      Gives (DocNest 0 0) (stmt d bare s)
  | .expr e, h, d, bare => by
      rw [Stmt.nodes, plainNames_cons] at h
      rw [stmt]
      exact (gives_expr e h.2 d).map fun _ he => .lineBreak he
  | .declare x i m, h, d, bare => by
      rw [Stmt.nodes, plainNames_cons] at h
      have hx : Nest 0 0 ("local " ++ x).toList :=
        nest_append (by decide) (nest_name (h.1 x List.mem_cons_self))
      rw [stmt]
      exact (gives_initializer i h.2 d).map fun _ hi => .lineBreak (.text hx hi)
  | .destructure p i, h, d, bare => by
      rw [Stmt.nodes, plainNames_cons] at h
      rw [stmt]
      exact .of_rest fun _ => (gives_expr i h.2 d).bind fun _ hi => .of_rest fun _ =>
        .of_rest fun _ => .pure (.lineBreak (docNest_destructure p _ _ _ h.1 hi))
  | .block b, h, d, bare => by
      rw [Stmt.nodes, plainNames_cons] at h
      rw [stmt]
      cases bare with
      | true => exact gives_stmts b h.2 d
      | false =>
          exact (gives_stmts b h.2 (d + 1)).map fun _ hb =>
            .append (.lineBreak (.text (by decide) hb)) (docNest_end d)
  | .ifElse t c a, h, d, bare => by
      rw [Stmt.nodes, plainNames_cons, plainNames_append, plainNames_append] at h
      rw [stmt]
      exact (gives_expr t h.2.1 d).bind fun _ ht =>
        (gives_stmt c h.2.2.1 (d + 1) true).bind fun _ hc =>
        (gives_else a h.2.2.2 d).map fun _ ha =>
          (((DocNest.lineBreak (.text (by decide) ht)).append (.text (by decide) hc)).append
            ha).append (docNest_end d)
  | .whileLoop t b, h, d, bare => by
      rw [Stmt.nodes, plainNames_cons, plainNames_append] at h
      rw [stmt]
      exact (gives_expr t h.2.1 d).bind fun _ ht =>
        (gives_loopBody (fun d => gives_stmt b h.2.2 d true) fun _ hp => by cases hp).map
          fun _ hb => ((DocNest.lineBreak (.text (by decide) ht)).append
            (.text (by decide) hb)).append (docNest_end d)
  | .forLoop i t u b, h, d, bare => by
      rw [Stmt.nodes, plainNames_cons, plainNames_append, plainNames_append, plainNames_append] at h
      have hend : DocNest 0 0
          [.lineBreak (d + 1), .text "end", .lineBreak d, .text "end"] :=
        (docNest_end (d + 1)).append (docNest_end d)
      rw [stmt_forLoop]
      exact (gives_init i h.2.1 (d + 1)).bind fun _ hi =>
        (gives_optionalDoc (by decide) t h.2.2.1 (d + 1)).bind fun _ ht =>
        (gives_loopBody (fun d => gives_stmt b h.2.2.2.1 d true)
          (gives_update u h.2.2.2.2 (d + 2))).map fun _ hb =>
          (((DocNest.lineBreak (.text (by decide) hi)).append
            (.lineBreak (.text (by decide) ht))).append (.text (by decide) hb)).append hend
  | .forEach x i b, h, d, bare => by
      rw [Stmt.nodes, plainNames_cons, plainNames_append] at h
      have hx : Nest 0 1 ("for _, " ++ x ++ " in ipairs(").toList :=
        nest_append (nest_append (by decide) (nest_name (h.1 x List.mem_cons_self))) (by decide)
      rw [stmt]
      exact (gives_expr i h.2.1 d).bind fun _ hi =>
        (gives_loopBody (fun d => gives_stmt b h.2.2 d true) fun _ hp => by cases hp).map
          fun _ hb => ((DocNest.lineBreak (.text hx hi.deeper)).append
            (.text (by decide) hb)).append (docNest_end d)
  | .ret none, h, d, bare => by
      rw [stmt]
      exact .pure (.lineBreak (.text (by decide) .nil))
  | .ret (some e), h, d, bare => by
      rw [Stmt.nodes, plainNames_cons] at h
      rw [stmt]
      exact (gives_expr e h.2 d).map fun _ he => .lineBreak (.text (by decide) he)
  | .breakLoop, h, d, bare => by
      rw [stmt]
      exact .pure (.lineBreak (.text (by decide) .nil))
  | .continueLoop, h, d, bare => by
      rw [stmt]
      exact .pure (.lineBreak (.text (by decide) .nil))
  | .throw e, h, d, bare => by
      rw [Stmt.nodes, plainNames_cons] at h
      rw [stmt]
      exact (gives_expr e h.2 d).map fun _ he =>
        (DocNest.lineBreak (.text (by decide : Nest 0 1 "error(".toList) he.deeper)).append
          (.text (by decide) .nil)
  | .tryCatch b p c f, h, d, bare => by
      rw [Stmt.nodes, plainNames_cons, plainNames_append, plainNames_append] at h
      rw [stmt_tryCatch]
      refine .of_rest fun n => (gives_stmt b h.2.1 (d + 1) true).bind fun _ hb => ?_
      have hok : Nest 0 0 ("__ok" ++ n.repr).toList := nest_numbered (by decide) n
      have herr : Nest 0 0 ("__err" ++ (n + 1).repr).toList := nest_numbered (by decide) _
      have hparam : Nest 0 0 (p.getD "_").toList := by
        cases p with
        | none => decide
        | some x => exact nest_name (h.1 x List.mem_cons_self)
      have hcall : Nest 0 1 ("local " ++ ("__ok" ++ n.repr) ++ ", " ++
          ("__err" ++ (n + 1).repr) ++ " = pcall(function()").toList :=
        nest_append (nest_append (nest_append (nest_append (by decide) hok) (by decide)) herr)
          (by decide)
      have hclose : DocNest 1 0 [.lineBreak d, .text "end)"] :=
        .lineBreak (.text (by decide) .nil)
      exact (gives_handler hok herr hparam c h.2.2.1 d).bind fun _ hc =>
        (gives_finalizer f h.2.2.2 d).map fun _ hf =>
          (((((DocNest.lineBreak (.text hcall hb.deeper)).append hclose).append hc).append
            hf)).append (docNest_rethrow hok herr d)
  | .function ⟨name, params, body, isAsync⟩, h, d, bare => by
      rw [Stmt.nodes, plainNames_cons, Func.nodes] at h
      rw [Node.names, List.forall_mem_cons] at h
      have hname : Nest 0 1 ("local function " ++ name ++ "(").toList :=
        nest_append (nest_append (by decide) (nest_name h.1.1)) (by decide)
      rw [stmt]
      exact (gives_stmts body h.2 (d + 1)).map fun _ hbody =>
        (DocNest.lineBreak (.text (nest_params hname h.1.2 (by decide)) hbody)).append
          (docNest_end d)
  | .holding s, h, d, bare => by
      rw [stmt]
      exact .pure (.lineBreak (.text (by decide) .nil))

theorem gives_stmts :
    (ss : List Stmt) → PlainNames (Stmt.nodesList ss) → (d : Nat) →
      Gives (DocNest 0 0) (stmts d ss)
  | [], _, d => by
      rw [stmts]
      exact .pure .nil
  | s :: ss, h, d => by
      rw [Stmt.nodesList, plainNames_append] at h
      rw [stmts]
      exact (gives_stmt s h.1 d false).bind fun _ hs => (gives_stmts ss h.2 d).map fun _ hss =>
        hs.append hss

theorem gives_init :
    (i : Option Stmt) → PlainNames (Stmt.nodesOption i) → (d : Nat) →
      Gives (DocNest 0 0) (initDoc d i)
  | none, _, _ => .pure .nil
  | some i, h, d => gives_stmt i h d false

theorem gives_handler
    {ok err param : String} (hok : Nest 0 0 ok.toList) (herr : Nest 0 0 err.toList)
    (hparam : Nest 0 0 param.toList) :
    (c : Option Stmt) → PlainNames (Stmt.nodesOption c) → (d : Nat) →
      Gives (DocNest 0 0) (handlerDoc d ok err param c)
  | none, _, _ => .pure .nil
  | some c, h, d => by
      have htest : Nest 0 0 ("if not " ++ ok ++ " then").toList :=
        nest_append (nest_append (by decide) hok) (by decide)
      have hcall : Nest 0 1 (ok ++ ", " ++ err ++ " = pcall(function(" ++ param ++ ")").toList :=
        nest_append (nest_append (nest_append (nest_append (nest_append hok (by decide)) herr)
          (by decide : Nest 0 2 " = pcall(function(".toList)) hparam.inside) (by decide)
      have hclose : Nest 1 0 ("end, " ++ err ++ ")").toList :=
        nest_append (nest_append (by decide) herr.deeper) (by decide)
      exact (gives_stmt c h (d + 2) true).map fun _ hc =>
        (DocNest.lineBreak (.text htest (.lineBreak (.text hcall hc.deeper)))).append
          (.lineBreak (.text hclose (docNest_end d)))

theorem gives_finalizer :
    (f : Option Stmt) → PlainNames (Stmt.nodesOption f) → (d : Nat) →
      Gives (DocNest 0 0) (finalizerDoc d f)
  | none, _, _ => .pure .nil
  | some f, h, d => gives_stmt f h d true

theorem gives_else :
    (a : Option Stmt) → PlainNames (Stmt.nodesOption a) → (d : Nat) →
      Gives (DocNest 0 0) (elseBranch d a)
  | none, _, _ => .pure .nil
  | some (.ifElse t c a), h, d => by
      rw [Stmt.nodesOption, Stmt.nodes, plainNames_cons, plainNames_append, plainNames_append] at h
      rw [elseBranch]
      exact (gives_expr t h.2.1 d).bind fun _ ht =>
        (gives_stmt c h.2.2.1 (d + 1) true).bind fun _ hc =>
        (gives_else a h.2.2.2 d).map fun _ ha =>
          ((DocNest.lineBreak (.text (by decide) ht)).append (.text (by decide) hc)).append ha
  | some (.expr _), h, d | some (.declare ..), h, d | some (.destructure ..), h, d
  | some (.block _), h, d | some (.whileLoop ..), h, d | some (.forLoop ..), h, d
  | some (.forEach ..), h, d | some (.ret _), h, d | some .breakLoop, h, d
  | some .continueLoop, h, d | some (.throw _), h, d | some (.tryCatch ..), h, d
  | some (.function _), h, d | some (.holding _), h, d =>
      (gives_stmt _ h (d + 1) true).map fun _ hs => .lineBreak (.text (by decide) hs)

end

end Lua

namespace TypeScript

/-! ## Names and literals of TypeScript -/

/-- The names of a function that stand in its text. -/
def functionNames (f : Func) : List String :=
  if f.name.isEmpty then f.params else f.name :: f.params

/-- The names of a node that stand in its text as they are. -/
def bareNames : Node → List String
  | .expr (.ident x) => [x]
  | .expr (.methodCall _ m _) => [m]
  | .expr (.member _ (.literal (.string s)) false) => [s]
  | .expr (.function f) => functionNames f
  | .stmt (.declare x _ _) => [x]
  | .stmt (.destructure p _) => p.names
  | .stmt (.forEach x _ _) => [x]
  | .stmt (.tryCatch _ p _ _) => p.toList
  | .stmt (.function f) => functionNames f
  | _ => []

/-- All names that stand in the text have the property. -/
def AllNames (P : String → Prop) (nodes : List Node) : Prop := ∀ x ∈ nodes.flatMap bareNames, P x

theorem allNames_cons
    {P : String → Prop} (n : Node) (ns : List Node) :
    AllNames P (n :: ns) ↔ (∀ x ∈ bareNames n, P x) ∧ AllNames P ns := by
  rw [AllNames, List.flatMap_cons, List.forall_mem_append]
  rfl

theorem allNames_append
    {P : String → Prop} (ns ns' : List Node) :
    AllNames P (ns ++ ns') ↔ AllNames P ns ∧ AllNames P ns' := by
  rw [AllNames, List.flatMap_append, List.forall_mem_append]
  rfl

/-- All names that stand in the text are identifiers. -/
def SpelledNames (nodes : List Node) : Prop := AllNames (isDollarIdentifier · = true) nodes

theorem spelledNames_cons
    (n : Node) (ns : List Node) :
    SpelledNames (n :: ns) ↔
      (∀ x ∈ bareNames n, isDollarIdentifier x = true) ∧ SpelledNames ns :=
  allNames_cons n ns

theorem spelledNames_append
    (ns ns' : List Node) : SpelledNames (ns ++ ns') ↔ SpelledNames ns ∧ SpelledNames ns' :=
  allNames_append ns ns'

/-- A character of a name. -/
def isWord (c : Char) : Bool := Text.isNamePart c || c == '$'

theorem not_isWord :
    ∀ c ∈ ['(', '[', '\x7b', ')', ']', '\x7d', '"', ' ', '.', '-', '!', '='],
      isWord c = false := by
  have hnone : ['(', '[', '\x7b', ')', ']', '\x7d', '"', ' ', '.', '-', '!', '='].any isWord =
      false := by
    decide +kernel
  exact fun c hc => Bool.not_eq_true _ ▸ List.any_eq_false.mp hnone c hc

theorem isWord_of_mem
    {x : String} (h : isDollarIdentifier x = true) : ∀ c ∈ x.toList, isWord c = true := by
  refine Text.part_of_isSpelled h fun c hc => ?_
  rw [Bool.or_eq_true] at hc
  rw [isWord, Bool.or_eq_true]
  exact hc.imp_left Text.isNamePart_of_isNameStart

theorem isFlat_of_isWord {c : Char} (h : isWord c = true) : Text.isFlat c = true := by
  refine Text.isFlat_of h (List.any_eq_false.mpr fun c' hc' => ?_)
  rw [not_isWord c' (List.mem_append_left [' ', '.', '-', '!', '='] hc')]
  exact Bool.false_ne_true

theorem shows_name {x : String} (h : isDollarIdentifier x = true) : Shows x.toList x.toList :=
  Text.shows_of_isFlat fun c hc => isFlat_of_isWord (isWord_of_mem h c hc)

theorem nest_name {x : String} (h : isDollarIdentifier x = true) : Nest 0 0 x.toList :=
  (shows_name h).nest

theorem nest_literal (l : Literal) : Nest 0 0 (literal l).toList := by
  cases l with
  | null => decide
  | bool value => cases value <;> decide
  | number d => exact (d.shows_text _ (by decide)).nest
  | string s => exact (Text.shows_quoted s).nest

theorem nest_key (k : String) : Nest 0 0 (key k).toList := by
  unfold key
  split
  · rename_i h
    exact nest_name h
  · exact (Text.shows_quoted k).nest

theorem nest_binaryOp (op : BinaryOp) : Nest 0 0 (" " ++ binaryOp op ++ " ").toList := by
  cases op <;> decide

theorem nest_asyncMark (isAsync : Bool) : Nest 0 0 (asyncMark isAsync).toList := by
  cases isAsync <;> decide

theorem nest_params
    {params : List String} {i : Nat} (h : ∀ x ∈ params, isDollarIdentifier x = true) :
    Nest i i (commaSeparated params).toList :=
  Text.nest_commaSeparated fun x hx => nest_name (h x hx)

theorem nest_arrowHead
    {params : List String} (isAsync : Bool) (h : ∀ x ∈ params, isDollarIdentifier x = true) :
    Nest 0 0 (arrowHead params isAsync).toList :=
  nest_append (nest_append (nest_append (nest_asyncMark isAsync) (by decide : Nest 0 1 "(".toList))
    (nest_params h)) (by decide)

theorem nest_functionHead
    {f : Func} (h : ∀ x ∈ functionNames f, isDollarIdentifier x = true) :
    Nest 0 0 (functionHead f.name f.params f.isAsync).toList := by
  unfold functionHead
  dsimp only
  unfold functionNames at h
  split at h
  · rename_i hempty
    rw [if_pos hempty]
    exact nest_append (nest_append (nest_append (nest_asyncMark f.isAsync)
      (by decide : Nest 0 1 "function(".toList)) (nest_params h)) (by decide)
  · rename_i hnamed
    rw [if_neg hnamed]
    obtain ⟨hname, hparams⟩ := List.forall_mem_cons.mp h
    have hopening : Nest 0 1 ("function " ++ f.name ++ "(").toList :=
      nest_append (nest_append (by decide) (nest_name hname)) (by decide)
    exact nest_append (nest_append (nest_append (nest_asyncMark f.isAsync) hopening)
      (nest_params hparams)) (by decide)

mutual

theorem nest_pattern :
    (p : Pattern) → (∀ x ∈ p.names, isDollarIdentifier x = true) → Nest 0 0 (pattern p).toList
  | .name x, h => by
      rw [pattern]
      exact nest_name (h x (by simp [Pattern.names]))
  | .tuple slots, h => by
      rw [Pattern.names] at h
      rw [pattern]
      exact nest_append (nest_append (by decide : Nest 0 1 "[".toList)
        (Text.nest_commaSeparated (nest_patterns slots h))) (by decide)

theorem nest_patterns :
    (ps : List Pattern) → (∀ x ∈ Pattern.namesList ps, isDollarIdentifier x = true) →
      ∀ t ∈ patterns ps, Nest 0 0 t.toList
  | [], _ => fun _ ht => absurd ht List.not_mem_nil
  | p :: ps, h => by
      rw [Pattern.namesList, List.forall_mem_append] at h
      rw [patterns]
      exact List.forall_mem_cons.mpr ⟨nest_pattern p h.1, nest_patterns ps h.2⟩

end

/-! ## TypeScript code -/

theorem docNest_args
    {docs : List Doc} (h : ∀ doc ∈ docs, DocNest 0 0 doc) {opening closing : String}
    (ho : Nest 0 1 opening.toList) (hc : Nest 1 0 closing.toList) :
    DocNest 0 0 (.text opening :: Doc.joinWith ", " docs ++ [.text closing]) :=
  .enclosed ho (.joinWith ", " (by decide) h) hc

theorem docNest_groupedIf
    {doc : Doc} (loose : Bool) (h : DocNest 0 0 doc) : DocNest 0 0 (groupedIf loose doc) := by
  cases loose with
  | false => exact h
  | true => exact .enclosed (by decide) h (by decide)

theorem docNest_braces {doc : Doc} (d : Nat) (h : DocNest 0 0 doc) : DocNest 0 0 (braces d doc) :=
  (DocNest.text (by decide : Nest 0 1 "\x7b".toList) h.deeper).append
    (.lineBreak (.text (by decide) .nil))

theorem docNest_enclosed
    {body : Nat → Doc} (block : Bool) (h : ∀ d, DocNest 0 0 (body d)) (d : Nat) :
    DocNest 0 0 (enclosed d block body) := by
  cases block with
  | true => exact h d
  | false => exact docNest_braces d (.lineBreak (h (d + 1)))

theorem nest_declaration
    {x : String} (mutable : Bool) (h : isDollarIdentifier x = true) :
    Nest 0 0 (declaration x mutable).toList :=
  nest_append (by cases mutable <;> decide) (nest_name h)

/-- The name of a member that stands behind a point. -/
def pointName? : Bool → Expr → Option String
  | false, .literal (.string s) => some s
  | _, _ => none

theorem pointName?_eq_some
    {computed : Bool} {p : Expr} {s : String} (h : pointName? computed p = some s) :
    computed = false ∧ p = .literal (.string s) := by
  unfold pointName? at h
  split at h
  · cases h
    exact ⟨rfl, rfl⟩
  · cases h

/-- What an access to a member puts behind the object. -/
def memberAccess (d : Nat) (computed : Bool) (p : Expr) : Doc :=
  match pointName? computed p with
  | some s => [.text ("." ++ s)]
  | none => .text "[" :: expr d p ++ [.text "]"]

theorem expr_member
    (d : Nat) (o p : Expr) (computed : Bool) :
    expr d (.member o p computed) = expr d o ++ memberAccess d computed p := by
  unfold memberAccess
  cases hname : pointName? computed p with
  | some s =>
      obtain ⟨rfl, rfl⟩ := pointName?_eq_some hname
      dsimp only
      rw [expr]
  | none =>
      rw [expr]
      · simp
      · rintro s rfl rfl
        cases hname

theorem docNest_memberAccess
    {d : Nat} {o p : Expr} (computed : Bool)
    (hnames : ∀ x ∈ bareNames (.expr (.member o p computed)), isDollarIdentifier x = true)
    (hp : DocNest 0 0 (expr d p)) : DocNest 0 0 (memberAccess d computed p) := by
  unfold memberAccess
  cases hname : pointName? computed p with
  | some s =>
      obtain ⟨rfl, rfl⟩ := pointName?_eq_some hname
      exact .text (nest_append (by decide) (nest_name (hnames s List.mem_cons_self))) .nil
  | none => exact .enclosed (by decide) hp (by decide)

/-- The beginning of a function that stands in an expression. -/
def head (f : Func) : String :=
  if f.name.isEmpty then arrowHead f.params f.isAsync else functionHead f.name f.params f.isAsync

/-- The expression that stands behind an arrow without braces. -/
def arrowBody? (f : Func) : Option Expr :=
  match f.body with
  | [.ret (some e)] => if f.name.isEmpty then some e else none
  | _ => none

theorem arrowBody?_eq_some
    {f : Func} {e : Expr} (h : arrowBody? f = some e) :
    f.name = "" ∧ f.body = [.ret (some e)] := by
  unfold arrowBody? at h
  split at h
  · rename_i hbody
    split at h
    · rename_i hname
      cases h
      exact ⟨String.isEmpty_iff.mp hname, hbody⟩
    · cases h
  · cases h

theorem expr_function_of_some
    (d : Nat) {f : Func} {e : Expr} (h : arrowBody? f = some e) :
    expr d (.function f) = .text (head f) :: expr d e := by
  obtain ⟨name, params, body, isAsync⟩ := f
  obtain ⟨rfl, rfl⟩ := arrowBody?_eq_some h
  rw [expr]
  rfl

theorem expr_function_of_none
    (d : Nat) {f : Func} (h : arrowBody? f = none) :
    expr d (.function f) = .text (head f) :: braces d (stmts (d + 1) f.body) := by
  obtain ⟨name, params, body, isAsync⟩ := f
  rw [expr]
  · rfl
  · rintro e rfl rfl
    cases h

theorem nest_head
    {f : Func} (h : ∀ x ∈ functionNames f, isDollarIdentifier x = true) :
    Nest 0 0 (head f).toList := by
  unfold head
  split
  · rename_i hempty
    rw [functionNames, if_pos hempty] at h
    exact nest_arrowHead f.isAsync h
  · exact nest_functionHead h

theorem docNest_function
    {d : Nat} {f : Func} (hnames : ∀ x ∈ functionNames f, isDollarIdentifier x = true)
    (hreturned : ∀ e, f.body = [.ret (some e)] → DocNest 0 0 (expr d e))
    (hbody : DocNest 0 0 (stmts (d + 1) f.body)) : DocNest 0 0 (expr d (.function f)) := by
  cases harrow : arrowBody? f with
  | some e =>
      rw [expr_function_of_some d harrow]
      exact .text (nest_head hnames) (hreturned e (arrowBody?_eq_some harrow).2)
  | none =>
      rw [expr_function_of_none d harrow]
      exact .text (nest_head hnames) (docNest_braces d hbody)

mutual

/-- The document of an expression is closed. -/
theorem docNest_expr :
    (e : Expr) → SpelledNames e.nodes → (d : Nat) → DocNest 0 0 (expr d e)
  | .literal l, _, d => by
      rw [expr]
      exact .text (nest_literal l) .nil
  | .ident x, h, d => by
      rw [Expr.nodes, spelledNames_cons] at h
      rw [expr]
      exact .text (nest_name (h.1 x List.mem_cons_self)) .nil
  | .binary l op r, h, d => by
      rw [Expr.nodes, spelledNames_cons, spelledNames_append] at h
      have hl := docNest_expr l h.2.1 d
      have hr := docNest_expr r h.2.2 d
      rw [expr]
      exact ((DocNest.text (by decide : Nest 0 1 "(".toList) hl.deeper).append
        (.text (nest_binaryOp op).deeper hr.deeper)).append (.text (by decide) .nil)
  | .unary op e, h, d => by
      rw [Expr.nodes, spelledNames_cons] at h
      rw [expr]
      exact .text (by cases op <;> decide) (docNest_expr e h.2 d)
  | .call f args, h, d => by
      rw [Expr.nodes, spelledNames_cons, spelledNames_append] at h
      have hf := docNest_expr f h.2.1 d
      have hargs := docNest_args (docNest_exprs args h.2.2 d) (by decide : Nest 0 1 "(".toList)
        (by decide : Nest 1 0 ")".toList)
      rw [expr]
      simpa using hf.append hargs
  | .methodCall r m args, h, d => by
      rw [Expr.nodes, spelledNames_cons, spelledNames_append] at h
      have hr := docNest_groupedIf (isLooseReceiver r) (docNest_expr r h.2.1 d)
      have hm : Nest 0 1 ("." ++ m ++ "(").toList :=
        nest_append (nest_append (by decide) (nest_name (h.1 m List.mem_cons_self))) (by decide)
      have hargs := docNest_args (docNest_exprs args h.2.2 d) hm (by decide : Nest 1 0 ")".toList)
      rw [expr]
      simpa using hr.append hargs
  | .member o p computed, h, d => by
      rw [Expr.nodes, spelledNames_cons, spelledNames_append] at h
      rw [expr_member]
      exact (docNest_expr o h.2.1 d).append
        (docNest_memberAccess computed h.1 (docNest_expr p h.2.2 d))
  | .array es, h, d => by
      rw [Expr.nodes, spelledNames_cons] at h
      rw [expr]
      exact docNest_args (docNest_exprs es h.2 d) (by decide) (by decide)
  | .object ps, h, d => by
      rw [Expr.nodes, spelledNames_cons] at h
      rw [expr]
      exact docNest_args (docNest_pairs ps h.2 d) (by decide) (by decide)
  | .function ⟨name, params, body, isAsync⟩, h, d => by
      rw [Expr.nodes, spelledNames_cons, Func.nodes] at h
      exact docNest_function h.1 (docNest_returned body h.2 d) (docNest_stmts body h.2 (d + 1))
  | .conditional t c a, h, d => by
      rw [Expr.nodes, spelledNames_cons, spelledNames_append, spelledNames_append] at h
      have ht := docNest_expr t h.2.1 d
      have hc := docNest_expr c h.2.2.1 d
      have ha := docNest_expr a h.2.2.2 d
      rw [expr]
      exact (((DocNest.text (by decide : Nest 0 1 "(".toList) ht.deeper).append
        (.text (by decide) hc.deeper)).append (.text (by decide) ha.deeper)).append
          (.text (by decide) .nil)
  | .assign t v, h, d => by
      rw [Expr.nodes, spelledNames_cons, spelledNames_append] at h
      rw [expr]
      exact (docNest_expr t h.2.1 d).append (.text (by decide) (docNest_expr v h.2.2 d))
  | .await e, h, d => by
      rw [Expr.nodes, spelledNames_cons] at h
      rw [expr]
      exact .text (by decide) (docNest_expr e h.2 d)

/-- The expression of a body that only returns it. -/
theorem docNest_returned :
    (ss : List Stmt) → SpelledNames (Stmt.nodesList ss) → (d : Nat) → (e : Expr) →
      ss = [.ret (some e)] → DocNest 0 0 (expr d e)
  | [.ret (some e)], h, d, _, rfl => by
      rw [Stmt.nodesList, Stmt.nodes, spelledNames_append, spelledNames_cons] at h
      exact docNest_expr e h.1.2 d

theorem docNest_exprs :
    (es : List Expr) → SpelledNames (Expr.nodesList es) → (d : Nat) →
      ∀ doc ∈ exprs d es, DocNest 0 0 doc
  | [], _, _ => fun _ h => absurd h List.not_mem_nil
  | e :: es, h, d => by
      rw [Expr.nodesList, spelledNames_append] at h
      rw [exprs]
      exact List.forall_mem_cons.mpr ⟨docNest_expr e h.1 d, docNest_exprs es h.2 d⟩

theorem docNest_pairs :
    (ps : List (String × Expr)) → SpelledNames (Expr.nodesPairs ps) → (d : Nat) →
      ∀ doc ∈ pairs d ps, DocNest 0 0 doc
  | [], _, _ => fun _ h => absurd h List.not_mem_nil
  | (k, e) :: ps, h, d => by
      have hk : Nest 0 0 (key k ++ ": ").toList := nest_append (nest_key k) (by decide)
      rw [Expr.nodesPairs, spelledNames_append] at h
      rw [pairs]
      exact List.forall_mem_cons.mpr ⟨.text hk (docNest_expr e h.1 d), docNest_pairs ps h.2 d⟩

theorem docNest_initializer :
    (i : Option Expr) → SpelledNames (Expr.nodesOption i) → (d : Nat) →
      DocNest 0 0 (initializer d i)
  | none, _, _ => .nil
  | some e, h, d => .text (by decide) (docNest_expr e h d)

theorem docNest_optional :
    (e : Option Expr) → SpelledNames (Expr.nodesOption e) → (d : Nat) →
      DocNest 0 0 (optional d e)
  | none, _, _ => .nil
  | some e, h, d => docNest_expr e h d

/-- The document of a statement is closed. -/
theorem docNest_stmt :
    (s : Stmt) → SpelledNames s.nodes → (d : Nat) → DocNest 0 0 (stmt d s)
  | .expr e, h, d => by
      rw [Stmt.nodes, spelledNames_cons] at h
      rw [stmt]
      exact (docNest_expr e h.2 d).append (.text (by decide) .nil)
  | .declare x i m, h, d => by
      rw [Stmt.nodes, spelledNames_cons] at h
      have hx := nest_declaration m (h.1 x List.mem_cons_self)
      rw [stmt]
      exact (DocNest.text hx (docNest_initializer i h.2 d)).append (.text (by decide) .nil)
  | .destructure p i, h, d => by
      rw [Stmt.nodes, spelledNames_cons] at h
      have hp : Nest 0 0 ("let " ++ pattern p ++ " = ").toList :=
        nest_append (nest_append (by decide) (nest_pattern p h.1)) (by decide)
      rw [stmt]
      exact (DocNest.text hp (docNest_expr i h.2 d)).append (.text (by decide) .nil)
  | .block b, h, d => by
      rw [Stmt.nodes, spelledNames_cons] at h
      rw [stmt]
      exact docNest_braces d (docNest_stmts b h.2 (d + 1))
  | .ifElse t c a, h, d => by
      rw [Stmt.nodes, spelledNames_cons, spelledNames_append, spelledNames_append] at h
      have ht := docNest_expr t h.2.1 d
      have hc := docNest_enclosed (isBlock c) (docNest_stmt c h.2.2.1) d
      have ha := docNest_else a h.2.2.2 d
      rw [stmt]
      exact ((DocNest.text (by decide : Nest 0 1 "if (".toList) ht.deeper).append
        (.text (by decide) hc)).append ha
  | .whileLoop t b, h, d => by
      rw [Stmt.nodes, spelledNames_cons, spelledNames_append] at h
      have ht := docNest_expr t h.2.1 d
      have hb := docNest_enclosed (isBlock b) (docNest_stmt b h.2.2) d
      rw [stmt]
      exact (DocNest.text (by decide : Nest 0 1 "while (".toList) ht.deeper).append
        (.text (by decide) hb)
  | .forLoop i t u b, h, d => by
      rw [Stmt.nodes, spelledNames_cons, spelledNames_append, spelledNames_append,
        spelledNames_append] at h
      have hi := docNest_forInit i h.2.1 d
      have ht := docNest_optional t h.2.2.1 d
      have hu := docNest_optional u h.2.2.2.2 d
      have hb := docNest_enclosed (isBlock b) (docNest_stmt b h.2.2.2.1) d
      rw [stmt]
      exact (((DocNest.text (by decide : Nest 0 1 "for (".toList) hi.deeper).append
        (.text (by decide) ht.deeper)).append (.text (by decide) hu.deeper)).append
          (.text (by decide) hb)
  | .forEach x i b, h, d => by
      rw [Stmt.nodes, spelledNames_cons, spelledNames_append] at h
      have hx : Nest 0 1 ("for (const " ++ x ++ " of ").toList :=
        nest_append (nest_append (by decide : Nest 0 1 "for (const ".toList)
          (nest_name (h.1 x List.mem_cons_self)).deeper) (by decide)
      have hi := docNest_expr i h.2.1 d
      have hb := docNest_enclosed (isBlock b) (docNest_stmt b h.2.2) d
      rw [stmt]
      exact (DocNest.text hx hi.deeper).append (.text (by decide) hb)
  | .ret none, _, _ | .breakLoop, _, _ | .continueLoop, _, _ | .holding _, _, _ =>
      .text (by decide) .nil
  | .ret (some e), h, d => by
      rw [Stmt.nodes, spelledNames_cons] at h
      rw [stmt]
      exact (DocNest.text (by decide) (docNest_expr e h.2 d)).append (.text (by decide) .nil)
  | .throw e, h, d => by
      rw [Stmt.nodes, spelledNames_cons] at h
      rw [stmt]
      exact (DocNest.text (by decide) (docNest_expr e h.2 d)).append (.text (by decide) .nil)
  | .tryCatch b p c f, h, d => by
      rw [Stmt.nodes, spelledNames_cons, spelledNames_append, spelledNames_append] at h
      have hp : Nest 0 0 (catchHead p).toList := by
        cases p with
        | none => decide
        | some x =>
            exact nest_append (nest_append (by decide : Nest 0 1 " catch (".toList)
              (nest_name (h.1 x List.mem_cons_self)).deeper) (by decide)
      have hb := docNest_enclosed (isBlock b) (docNest_stmt b h.2.1) d
      have hc := docNest_clause hp c h.2.2.1 d
      have hf := docNest_clause (by decide : Nest 0 0 " finally ".toList) f h.2.2.2 d
      rw [stmt_tryCatch]
      exact .text (by decide) (hb.append (hc.append hf))
  | .function ⟨name, params, body, isAsync⟩, h, d => by
      rw [Stmt.nodes, spelledNames_cons, Func.nodes] at h
      rw [stmt]
      have hhead := nest_functionHead (f := ⟨name, params, body, isAsync⟩) h.1
      exact .text hhead (docNest_braces d (docNest_stmts body h.2 (d + 1)))

theorem docNest_stmts :
    (ss : List Stmt) → SpelledNames (Stmt.nodesList ss) → (d : Nat) → DocNest 0 0 (stmts d ss)
  | [], _, _ => .nil
  | s :: ss, h, d => by
      rw [Stmt.nodesList, spelledNames_append] at h
      rw [stmts]
      exact (DocNest.lineBreak (docNest_stmt s h.1 d)).append (docNest_stmts ss h.2 d)

theorem docNest_clause
    {head : String} (hhead : Nest 0 0 head.toList) :
    (s : Option Stmt) → SpelledNames (Stmt.nodesOption s) → (d : Nat) →
      DocNest 0 0 (clauseDoc d head s)
  | none, _, _ => .nil
  | some s, h, d => .text hhead (docNest_enclosed (isBlock s) (docNest_stmt s h) d)

theorem docNest_else :
    (s : Option Stmt) → SpelledNames (Stmt.nodesOption s) → (d : Nat) →
      DocNest 0 0 (elseBranch d s)
  | none, _, _ => .nil
  | some (.ifElse t c a), h, d => by
      rw [Stmt.nodesOption, Stmt.nodes, spelledNames_cons, spelledNames_append,
        spelledNames_append] at h
      have ht := docNest_expr t h.2.1 0
      have hc := docNest_enclosed (isBlock c) (docNest_stmt c h.2.2.1) 0
      have ha := docNest_else a h.2.2.2 0
      rw [elseBranch]
      exact ((DocNest.text (by decide : Nest 0 1 " else if (".toList) ht.deeper).append
        (.text (by decide) hc)).append ha
  | some (.expr _), h, d | some (.declare ..), h, d | some (.destructure ..), h, d
  | some (.block _), h, d | some (.whileLoop ..), h, d | some (.forLoop ..), h, d
  | some (.forEach ..), h, d | some (.ret _), h, d | some .breakLoop, h, d
  | some .continueLoop, h, d | some (.throw _), h, d | some (.tryCatch ..), h, d
  | some (.function _), h, d | some (.holding _), h, d =>
      .text (by decide) (docNest_enclosed _ (docNest_stmt _ h) d)

theorem docNest_forInit :
    (i : Option Stmt) → SpelledNames (Stmt.nodesOption i) → (d : Nat) →
      DocNest 0 0 (forInit d i)
  | some (.declare x i m), h, d => by
      rw [Stmt.nodesOption, Stmt.nodes, spelledNames_cons] at h
      exact .text (nest_declaration m (h.1 x List.mem_cons_self)) (docNest_initializer i h.2 d)
  | some (.expr e), h, d => by
      rw [Stmt.nodesOption, Stmt.nodes, spelledNames_cons] at h
      exact docNest_expr e h.2 d
  | none, _, _ | some (.destructure ..), _, _ | some (.block _), _, _ | some (.ifElse ..), _, _
  | some (.whileLoop ..), _, _ | some (.forLoop ..), _, _ | some (.forEach ..), _, _
  | some (.ret _), _, _ | some .breakLoop, _, _ | some .continueLoop, _, _
  | some (.throw _), _, _ | some (.tryCatch ..), _, _ | some (.function _), _, _
  | some (.holding _), _, _ => .nil

end

end TypeScript

end Bracket
