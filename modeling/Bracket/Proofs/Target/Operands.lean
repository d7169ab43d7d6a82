import Bracket.Proofs.Double.Decimals
import Bracket.Proofs.Target.Closed

/-!
# Operands of calls and members in Lua code

A call, a method call and an access to a member put their own text behind that of an operand.
An operand that does not end where its own text ends gets parentheses, so the outline of the
whole has no blank and no line break in it, and how it ends tells the three apart.  All other
expressions have other outlines.  It follows that no two expressions with different roots have
the same text, if one of them is a call, a method call or an access to a member.
-/

namespace Bracket

namespace Lua

open Text (Doc Nest DocNest Shows commaSeparated isPlainIdentifier nest_append)

/-! ## Accesses -/

/-- An expression that puts its text behind an operand. -/
inductive Access where
  | call
  | methodCall
  | member
  deriving DecidableEq, Repr

def access? : Expr → Option Access
  | .call .. => some .call
  | .methodCall .. => some .methodCall
  | .member .. => some .member
  | _ => none

/-- The character separates words. -/
def isGap (c : Char) : Bool := c == ' ' || c == '\n'

/-- The character begins a number or a negation. -/
def leadsNumber (c : Char) : Bool := c.isDigit || c == '-'

/-- What the end of an outline says about the root of an expression. -/
def readEnd (o : List Char) : Option Access :=
  match Text.beforeWord isWord o with
  | some ')' =>
      let operand := o.dropLast.dropLast
      if operand.isEmpty then none
      else if Text.beforeWord isWord operand = some ':' then some .methodCall
      else some .call
  | some ']' => some .member
  | some '.' => some .member
  | _ => none

/-- What an outline says about the root of an expression. -/
def readAccess (o : List Char) : Option Access :=
  if o.any isGap || o.head?.any leadsNumber then none else readEnd o

/-- The outline of an operand. -/
structure Operand (o : List Char) : Prop where
  gapless : ∀ c ∈ o, isGap c = false
  leads : ∃ first rest, o = first :: rest ∧ leadsNumber first = false
  ends : Text.beforeWord isWord o ≠ some ':'

theorem isGap_of_isWord {c : Char} (h : isWord c = true) : isGap c = false := by
  rw [← Bool.not_eq_true, isGap, Bool.or_eq_true, beq_iff_eq, beq_iff_eq]
  rintro (rfl | rfl) <;> exact absurd h (by decide)

section Reading

variable {o word tail : List Char}

theorem Operand.append
    {c : Char} (h : Operand o) (htail : ∀ c ∈ tail, isGap c = false)
    (hend : Text.beforeWord isWord (o ++ tail) = some c) (hc : c ≠ ':') : Operand (o ++ tail) := by
  obtain ⟨first, rest, hfirst, hlead⟩ := h.leads
  refine ⟨List.forall_mem_append.mpr ⟨h.gapless, htail⟩, ⟨first, rest ++ tail, ?_, hlead⟩, ?_⟩
  · rw [hfirst, List.cons_append]
  · rw [hend]
    simpa using hc

theorem operand_parens : Operand ['(', ')'] :=
  ⟨by simp [isGap], ⟨_, _, rfl, by decide⟩, by decide⟩

/-- Behind an operand only the end of an outline has to be read. -/
theorem readAccess_append
    (h : Operand o) (htail : ∀ c ∈ tail, isGap c = false) :
    readAccess (o ++ tail) = readEnd (o ++ tail) := by
  have hgaps : (o ++ tail).any isGap = false := by
    rw [List.any_eq_false]
    intro c hc
    simpa using List.forall_mem_append.mpr ⟨h.gapless, htail⟩ c hc
  obtain ⟨first, rest, rfl, hlead⟩ := h.leads
  have hhead : (first :: rest ++ tail).head?.any leadsNumber = false := hlead
  rw [readAccess, hgaps, hhead]
  rfl

theorem beforeWord_parens : Text.beforeWord isWord (o ++ ['(', ')']) = some ')' :=
  Text.beforeWord_pair o '(' (by decide)

theorem readEnd_parens
    (hne : o ≠ []) :
    readEnd (o ++ ['(', ')']) =
      if Text.beforeWord isWord o = some ':' then some .methodCall else some .call := by
  have hdrop : (o ++ ['(', ')']).dropLast.dropLast = o := by
    simp
  have hempty : o.isEmpty = false := by simpa using hne
  rw [readEnd, beforeWord_parens]
  simp only [hdrop, hempty, Bool.false_eq_true, if_false]

theorem Operand.ne_nil (h : Operand o) : o ≠ [] := by
  obtain ⟨first, rest, rfl, -⟩ := h.leads
  exact List.cons_ne_nil _ _

/-- The outline of a call. -/
theorem Operand.call (h : Operand o) :
    Operand (o ++ ['(', ')']) ∧ readAccess (o ++ ['(', ')']) = some .call := by
  have hgaps : ∀ c ∈ ['(', ')'], isGap c = false := by simp [isGap]
  refine ⟨h.append hgaps beforeWord_parens (by decide), ?_⟩
  rw [readAccess_append h hgaps, readEnd_parens h.ne_nil, if_neg h.ends]

/-- The outline of a call of a method. -/
theorem Operand.methodCall
    (h : Operand o) (hword : ∀ c ∈ word, isWord c = true) :
    Operand (o ++ (':' :: word ++ ['(', ')'])) ∧
      readAccess (o ++ (':' :: word ++ ['(', ')'])) = some .methodCall := by
  have hgaps : ∀ c ∈ ':' :: word ++ ['(', ')'], isGap c = false :=
    List.forall_mem_append.mpr ⟨List.forall_mem_cons.mpr
      ⟨by decide, fun c hc => isGap_of_isWord (hword c hc)⟩, by simp [isGap]⟩
  have hcolon : Text.beforeWord isWord (o ++ ':' :: word) = some ':' :=
    Text.beforeWord_append_word o (by decide) hword
  have hne : o ++ ':' :: word ≠ [] := by simp
  have hend := beforeWord_parens (o := o ++ ':' :: word)
  rw [List.append_assoc] at hend
  refine ⟨h.append hgaps hend (by decide), ?_⟩
  rw [readAccess_append h hgaps, ← List.append_assoc, readEnd_parens hne, if_pos hcolon]

/-- The outline of an access by a name. -/
theorem Operand.point
    (h : Operand o) (hword : ∀ c ∈ word, isWord c = true) :
    Operand (o ++ '.' :: word) ∧ readAccess (o ++ '.' :: word) = some .member := by
  have hgaps : ∀ c ∈ '.' :: word, isGap c = false :=
    List.forall_mem_cons.mpr ⟨by decide, fun c hc => isGap_of_isWord (hword c hc)⟩
  have hend : Text.beforeWord isWord (o ++ '.' :: word) = some '.' :=
    Text.beforeWord_append_word o (by decide) hword
  refine ⟨h.append hgaps hend (by decide), ?_⟩
  rw [readAccess_append h hgaps, readEnd, hend]
  rfl

/-- The outline of an access by a computed position. -/
theorem Operand.brackets
    (h : Operand o) :
    Operand (o ++ ['[', ']']) ∧ readAccess (o ++ ['[', ']']) = some .member := by
  have hend : Text.beforeWord isWord (o ++ ['[', ']']) = some ']' :=
    Text.beforeWord_pair o '[' (by decide)
  have hgaps : ∀ c ∈ ['[', ']'], isGap c = false := by simp [isGap]
  refine ⟨h.append hgaps hend (by decide), ?_⟩
  rw [readAccess_append h hgaps, readEnd, hend]
  rfl

end Reading

/-! ## The outlines of documents -/

/-- At the width the document has an outline with the property. -/
def Outlined (w : Nat) (P : List Char → Prop) (doc : Doc) : Prop :=
  ∃ o, Shows (doc.render w) o ∧ P o

/-- The outline is that of an operand, and it says what kind of access the expression is. -/
def IsAccess (a : Access) (o : List Char) : Prop := Operand o ∧ readAccess o = some a

section Documents

variable {w : Nat} {doc doc' : Doc} {docs : List Doc}

theorem outlined_grouped
    {bare : Bool} (hclosed : DocNest 0 0 doc) (h : bare = true → Outlined w Operand doc) :
    Outlined w Operand (grouped bare doc) := by
  cases bare with
  | true => exact h rfl
  | false =>
      refine ⟨['(', ')'], ?_, operand_parens⟩
      simpa [grouped] using (hclosed w).enclosed (by decide : Text.isOpening '(' = true)
        (by decide : Text.isClosing ')' = true)

theorem shows_args
    (h : ∀ doc ∈ docs, DocNest 0 0 doc) :
    Shows ((.text "(" :: Doc.joinWith ", " docs ++ [.text ")"] : Doc).render w) ['(', ')'] := by
  have hargs := DocNest.joinWith ", " (by decide) h
  simpa using (hargs w).enclosed (by decide : Text.isOpening '(' = true)
    (by decide : Text.isClosing ')' = true)

theorem outlined_call
    (hoperand : Outlined w Operand doc) (hargs : ∀ doc ∈ docs, DocNest 0 0 doc) :
    Outlined w (IsAccess .call) (doc ++ .text "(" :: Doc.joinWith ", " docs ++ [.text ")"]) := by
  obtain ⟨o, hshows, ho⟩ := hoperand
  refine ⟨o ++ ['(', ')'], ?_, ho.call⟩
  simpa using hshows.append (shows_args hargs)

theorem outlined_methodCall
    {m : String} (hoperand : Outlined w Operand doc) (hm : isPlainIdentifier m = true)
    (hargs : ∀ doc ∈ docs, DocNest 0 0 doc) :
    Outlined w (IsAccess .methodCall)
      (doc ++ .text (":" ++ m) :: .text "(" :: Doc.joinWith ", " docs ++ [.text ")"]) := by
  obtain ⟨o, hshows, ho⟩ := hoperand
  refine ⟨o ++ (':' :: m.toList ++ ['(', ')']), ?_, ho.methodCall (isWord_of_mem hm)⟩
  have hcolon : Shows [':'] [':'] := by decide
  simpa using hshows.append (hcolon.append ((shows_name hm).append (shows_args hargs)))

theorem outlined_member
    (computed : Bool) (property : Expr) (hoperand : Outlined w Operand doc)
    (hproperty : DocNest 0 0 doc') :
    Outlined w (IsAccess .member) (doc ++ memberAccess computed property doc') := by
  obtain ⟨o, hshows, ho⟩ := hoperand
  rw [memberAccess_eq]
  cases hname : pointName? computed property with
  | none =>
      refine ⟨o ++ ['[', ']'], ?_, ho.brackets⟩
      simpa using hshows.append ((hproperty w).enclosed (by decide : Text.isOpening '[' = true)
        (by decide : Text.isClosing ']' = true))
  | some s =>
      have hs := (pointName?_eq_some hname).2
      have hpoint : Shows ['.'] ['.'] := by decide
      refine ⟨o ++ '.' :: s.toList, ?_, ho.point (isWord_of_mem hs)⟩
      simpa using hshows.append (hpoint.append (shows_name hs))

end Documents

/-! ## The roots of expressions -/

theorem not_leadsNumber
    {c : Char} (h : (c.isAlpha || c == '_') = true) : leadsNumber c = false := by
  have hdigit : c.isDigit = false :=
    Text.not_isDigit_of (p := fun c => c.isAlpha || c == '_') h (by decide)
  have hminus : c ≠ '-' := by
    rintro rfl
    exact absurd h (by decide)
  simp [leadsNumber, hdigit, hminus]

theorem operand_name {x : String} (h : isPlainIdentifier x = true) : Operand x.toList := by
  have hword := isWord_of_mem h
  refine ⟨fun c hc => isGap_of_isWord (hword c hc), ?_, ?_⟩
  · obtain ⟨first, rest, hchars, hfirst, -⟩ := Text.exists_of_isSpelled h
    exact ⟨first, rest, hchars, not_leadsNumber hfirst⟩
  · rw [Text.beforeWord_word hword]
    exact Option.some_ne_none _ |>.symm

/-- What stands before an access is read as an operand. -/
theorem gives_operand
    (w : Nat) :
    (e : Expr) → PlainNames e.nodes → (d : Nat) →
      Gives (fun doc => Outlined w Operand (grouped (isPrefixForm e) doc)) (expr d e)
  | .ident x, h, d => by
      rw [Expr.nodes, plainNames_cons] at h
      have hx := h.1 x List.mem_cons_self
      rw [expr]
      refine .pure ⟨x.toList, ?_, operand_name hx⟩
      simpa [grouped, isPrefixForm] using shows_name hx
  | .call f args, h, d => by
      rw [Expr.nodes, plainNames_cons, plainNames_append] at h
      rw [expr]
      refine (gives_operand w f h.2.1 d).bind fun _ hf =>
        (gives_exprs args h.2.2 d).map fun _ hargs => ?_
      obtain ⟨o, hshows, ho⟩ := outlined_call hf hargs
      exact ⟨o, hshows, ho.1⟩
  | .methodCall r m args, h, d => by
      rw [Expr.nodes, plainNames_cons, plainNames_append] at h
      rw [expr]
      refine (gives_operand w r h.2.1 d).bind fun _ hr =>
        (gives_exprs args h.2.2 d).map fun _ hargs => ?_
      obtain ⟨o, hshows, ho⟩ := outlined_methodCall hr (h.1 m List.mem_cons_self) hargs
      exact ⟨o, hshows, ho.1⟩
  | .member o p computed, h, d => by
      rw [Expr.nodes, plainNames_cons, plainNames_append] at h
      rw [expr]
      refine (gives_operand w o h.2.1 d).bind fun _ ho => (gives_expr p h.2.2 d).map fun _ hp => ?_
      obtain ⟨o, hshows, ho⟩ := outlined_member computed p ho hp
      exact ⟨o, hshows, ho.1⟩
  | .await e, h, d => by
      rw [Expr.nodes, plainNames_cons] at h
      rw [expr, isPrefixForm]
      exact gives_operand w e h.2 d
  | .literal _, h, d | .binary .., h, d | .unary .., h, d | .array _, h, d | .object _, h, d
  | .function _, h, d | .conditional .., h, d | .assign .., h, d =>
      fun n => outlined_grouped (gives_expr _ h d n) fun hform => by cases hform

/-- An outline without an access at its end. -/
theorem readAccess_of_readEnd {o : List Char} (h : readEnd o = none) : readAccess o = none := by
  rw [readAccess, h, ite_self]

theorem readAccess_of_isWord
    {o : List Char} (h : ∀ c ∈ o, isWord c = true) : readAccess o = none := by
  refine readAccess_of_readEnd ?_
  rw [readEnd, Text.beforeWord_word h]

theorem readAccess_of_gap
    {o : List Char} {c : Char} (hc : isGap c = true) (h : c ∈ o) : readAccess o = none := by
  have hgap : o.any isGap = true := List.any_eq_true.mpr ⟨c, h, hc⟩
  rw [readAccess, hgap]
  rfl

theorem readAccess_of_leadsNumber
    {o : List Char} {c : Char} (hc : leadsNumber c = true) : readAccess (c :: o) = none := by
  have hlead : (c :: o).head?.any leadsNumber = true := hc
  rw [readAccess, hlead, Bool.or_true]
  rfl

theorem readAccess_number (d : Double) :
    readAccess (d.text (.below (Nat.pow 10 15))).toList = none := by
  obtain ⟨body, htext, hbody⟩ := d.toList_text_cases (.below (Nat.pow 10 15)) (by decide)
  rw [htext]
  cases d.isNegative with
  | true => exact readAccess_of_leadsNumber (by decide)
  | false =>
      rcases hbody with rfl | rfl | ⟨n, fraction, rfl, -⟩
      · decide
      · decide
      · obtain ⟨first, rest, hdigits, hfirst⟩ := Double.natDigits_eq_cons n
        rw [hdigits]
        exact readAccess_of_leadsNumber (by simp [leadsNumber, hfirst])

theorem outlined_literal
    {w : Nat} (l : Literal) :
    Outlined w (fun o => readAccess o = none) [.text (literal l)] := by
  have hshows {o : List Char} (h : Shows (literal l).toList o) (ho : readAccess o = none) :
      Outlined w (fun o => readAccess o = none) [.text (literal l)] :=
    ⟨o, by simpa using h, ho⟩
  cases l with
  | null => exact hshows (o := ['n', 'i', 'l']) (by decide) (by decide)
  | bool value =>
      cases value with
      | true => exact hshows (o := ['t', 'r', 'u', 'e']) (by decide) (by decide)
      | false => exact hshows (o := ['f', 'a', 'l', 's', 'e']) (by decide) (by decide)
  | number d => exact hshows (d.shows_text _ (by decide)) (readAccess_number d)
  | string s => exact hshows (Text.shows_quoted s) (by decide)

theorem outlined_parens
    {w : Nat} {doc : Doc} (h : DocNest 0 0 doc) :
    Outlined w (fun o => readAccess o = none) (.text "(" :: doc ++ [.text ")"]) := by
  refine ⟨['(', ')'], ?_, by decide⟩
  simpa using (h w).enclosed (by decide : Text.isOpening '(' = true)
    (by decide : Text.isClosing ')' = true)

theorem outlined_table
    {w : Nat} {docs : List Doc} (h : ∀ doc ∈ docs, DocNest 0 0 doc) :
    Outlined w (fun o => readAccess o = none) (table docs) := by
  refine ⟨['\x7b', '\x7d'], ?_, by decide⟩
  have hentries : DocNest 0 0 (.text " " :: Doc.joinWith ", " docs ++ [.text " "]) :=
    (DocNest.text (by decide : Nest 0 0 " ".toList) (.joinWith ", " (by decide) h)).append
      (.text (by decide) .nil)
  unfold table
  split
  · exact (by decide : Shows ("\x7b\x7d".toList ++ []) ['\x7b', '\x7d'])
  · simpa using (hentries w).enclosed (by decide : Text.isOpening '\x7b' = true)
      (by decide : Text.isClosing '\x7d' = true)

/-- An outline with a gap in it. -/
theorem outlined_gap
    {w : Nat} {c : Char} {before after : Doc} {gap : List Char} (hbefore : DocNest 0 0 before)
    (hgap : Shows gap gap) (hc : isGap c = true) (hmem : c ∈ gap)
    (hafter : ∃ rest, after.render w = gap ++ rest ∧ Nest 0 0 rest) :
    Outlined w (fun o => readAccess o = none) (before ++ after) := by
  obtain ⟨rest, hrender, hrest⟩ := hafter
  obtain ⟨o, ho⟩ := (hbefore w).exists_shows
  obtain ⟨o', ho'⟩ := hrest.exists_shows
  refine ⟨o ++ (gap ++ o'), ?_, readAccess_of_gap hc ?_⟩
  · rw [Doc.render_append, hrender]
    exact ho.append (hgap.append ho')
  · simp [hmem]

/-- The outline of an expression says what its root is. -/
theorem gives_access
    (w : Nat) (e : Expr) (h : PlainNames e.nodes) (hawait : ∀ e', e ≠ .await e') (d : Nat) :
    Gives (Outlined w fun o => readAccess o = access? e) (expr d e) := by
  cases e with
  | literal l =>
      rw [expr]
      exact .pure (outlined_literal l)
  | ident x =>
      rw [Expr.nodes, plainNames_cons] at h
      have hx := h.1 x List.mem_cons_self
      rw [expr]
      exact .pure ⟨x.toList, by simpa using shows_name hx, readAccess_of_isWord (isWord_of_mem hx)⟩
  | binary l op r =>
      rw [Expr.nodes, plainNames_cons, plainNames_append] at h
      rw [expr]
      exact (gives_expr l h.2.1 d).bind fun _ hl => (gives_expr r h.2.2 d).map fun _ hr => by
        simpa [access?] using outlined_parens (hl.append (.text (nest_binaryOp op) hr))
  | unary op e =>
      rw [Expr.nodes, plainNames_cons] at h
      rw [expr]
      refine (gives_expr e h.2 d).map fun doc he => ?_
      obtain ⟨o, ho⟩ := (he w).exists_shows
      cases op with
      | neg =>
          have hminus : Shows ['-'] ['-'] := by decide
          exact ⟨'-' :: o, hminus.append ho, readAccess_of_leadsNumber (by decide)⟩
      | not =>
          exact outlined_gap .nil (by decide : Shows "not ".toList "not ".toList)
            (by decide : isGap ' ' = true) (by decide) ⟨doc.render w, rfl, he w⟩
  | call f args =>
      rw [Expr.nodes, plainNames_cons, plainNames_append] at h
      rw [expr]
      refine (gives_operand w f h.2.1 d).bind fun _ hf =>
        (gives_exprs args h.2.2 d).map fun _ hargs => ?_
      obtain ⟨o, hshows, ho⟩ := outlined_call hf hargs
      exact ⟨o, hshows, ho.2⟩
  | methodCall r m args =>
      rw [Expr.nodes, plainNames_cons, plainNames_append] at h
      rw [expr]
      refine (gives_operand w r h.2.1 d).bind fun _ hr =>
        (gives_exprs args h.2.2 d).map fun _ hargs => ?_
      obtain ⟨o, hshows, ho⟩ := outlined_methodCall hr (h.1 m List.mem_cons_self) hargs
      exact ⟨o, hshows, ho.2⟩
  | member o p computed =>
      rw [Expr.nodes, plainNames_cons, plainNames_append] at h
      rw [expr]
      refine (gives_operand w o h.2.1 d).bind fun _ ho => (gives_expr p h.2.2 d).map fun _ hp => ?_
      obtain ⟨o, hshows, ho⟩ := outlined_member computed p ho hp
      exact ⟨o, hshows, ho.2⟩
  | array es =>
      rw [Expr.nodes, plainNames_cons] at h
      rw [expr]
      exact (gives_exprs es h.2 d).map fun _ hes => outlined_table hes
  | object ps =>
      rw [Expr.nodes, plainNames_cons] at h
      rw [expr]
      exact (gives_pairs ps h.2 d).map fun _ hps => outlined_table hps
  | function f =>
      obtain ⟨name, params, body, isAsync⟩ := f
      rw [Expr.nodes, plainNames_cons, Func.nodes] at h
      have hhead : Nest 0 0 ("function(" ++ commaSeparated params ++ ")").toList :=
        nest_params (by decide : Nest 0 1 "function(".toList) h.1 (by decide)
      rw [expr]
      refine (gives_stmts body h.2 (d + 1)).map fun _ hbody => ?_
      have hspaces : Shows (List.replicate (d * w) ' ') (List.replicate (d * w) ' ') := by
        refine Text.shows_of_isFlat fun c hc => ?_
        rw [List.eq_of_mem_replicate hc]
        decide
      have hend : Nest 0 0 (List.replicate (d * w) ' ' ++ "end".toList) :=
        hspaces.nest.append (by decide)
      exact outlined_gap (.text hhead hbody) (by decide : Shows ['\n'] ['\n'])
        (by decide : isGap '\n' = true) (by decide) ⟨_, by simp, hend⟩
  | conditional t c a =>
      rw [Expr.nodes, plainNames_cons, plainNames_append, plainNames_append] at h
      rw [expr]
      exact (gives_expr t h.2.1 d).bind fun _ ht => (gives_expr c h.2.2.1 d).bind fun _ hc =>
        (gives_expr a h.2.2.2 d).map fun _ ha => by
          simpa [access?] using outlined_parens
            (ht.append (.text (by decide : Nest 0 0 " and ".toList)
              (hc.append (.text (by decide : Nest 0 0 " or ".toList) ha))))
  | assign t v =>
      rw [Expr.nodes, plainNames_cons, plainNames_append] at h
      rw [expr]
      exact (gives_expr t h.2.1 d).bind fun _ ht => (gives_expr v h.2.2 d).map fun doc hv =>
        outlined_gap ht (by decide : Shows " = ".toList " = ".toList)
          (by decide : isGap ' ' = true) (by decide) ⟨doc.render w, rfl, hv w⟩
  | await e => exact absurd rfl (hawait e)

/-! ## Equal texts -/

/-- What an expression writes behind a text is that of its document. -/
theorem written_eq
    (e : Expr) (b : Text.Buffer) :
    ((writeExpr e).run b).2.written =
      (((expr b.depth e).run b.locals).1.render b.width).reverse ++ b.written := by
  rw [writeExpr_writes e b.depth b rfl]
  rfl

/-- An expression with the text of a call, a method call or an access to a member has the same
root, unless it waits for something. -/
theorem access?_eq_of_written
    {e₁ e₂ : Expr} {a : Access} {b : Text.Buffer} (h₁ : PlainNames e₁.nodes)
    (h₂ : PlainNames e₂.nodes) (hawait : ∀ e, e₂ ≠ .await e) (hroot : access? e₁ = some a)
    (htext : ((writeExpr e₁).run b).2.written = ((writeExpr e₂).run b).2.written) :
    access? e₂ = some a := by
  have hawait₁ : ∀ e, e₁ ≠ .await e := by
    rintro e rfl
    cases hroot
  obtain ⟨o₁, hshows₁, ho₁⟩ := gives_access b.width e₁ h₁ hawait₁ b.depth b.locals
  obtain ⟨o₂, hshows₂, ho₂⟩ := gives_access b.width e₂ h₂ hawait b.depth b.locals
  rw [written_eq, written_eq, List.append_cancel_right_eq, List.reverse_inj] at htext
  rw [htext] at hshows₁
  rw [← ho₂, hshows₂.unique hshows₁, ho₁, hroot]

/-- A call of a function on an empty table. -/
def appliedFunction (name : String) (table : Expr) : Expr :=
  .call (.function ⟨name, ["x"], [.ret (some (.ident "x"))], false⟩) [table]

/-- The name of a function and the kind of an empty table do not show. -/
theorem access?_eq_of_appliedFunction :
    ((writeExpr (appliedFunction "" (.array []))).run (.empty 2)).2.written =
        ((writeExpr (appliedFunction "keep" (.object []))).run (.empty 2)).2.written ∧
      access? (appliedFunction "keep" (.object [])) = some .call := by
  have htext : ((writeExpr (appliedFunction "" (.array []))).run (.empty 2)).2.written =
      ((writeExpr (appliedFunction "keep" (.object []))).run (.empty 2)).2.written := by
    decide +kernel
  have harray : PlainNames (appliedFunction "" (.array [])).nodes := by
    unfold PlainNames
    decide +kernel
  have hobject : PlainNames (appliedFunction "keep" (.object [])).nodes := by
    unfold PlainNames
    decide +kernel
  exact ⟨htext, access?_eq_of_written harray hobject (fun e h => by cases h) rfl htext⟩

end Lua

end Bracket
