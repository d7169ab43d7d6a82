import Bracket.Proofs.Double.Decimals
import Bracket.Proofs.Target.Closed

/-!
# Operands of calls and members in TypeScript code

A call, a method call and an access to a member put their own text behind that of an operand.
Only a function and an awaited value get parentheses, and only before a method.  An operand that
ends with an operand of its own is open: what stands behind it falls to that last operand, so a
call of `-x` is written like the negation of a call of `x`.

Calls, method calls and accesses to members can be told from all other expressions exactly if
they are not open.  An open one is regrouped without a change of the text.  The outline of any
other consists of words: the last one ends with the call or the access, and the words before it
are those of a function with a block, whose opening brace ends a line.
-/

namespace Bracket

namespace TypeScript

open Text (Doc Nest DocNest Shows commaSeparated isDollarIdentifier)

/-! ## Open expressions -/

/-- An expression that puts its text behind an operand. -/
def isAccess : Expr → Bool
  | .call .. | .methodCall .. | .member .. => true
  | _ => false

/-- The operand with which the text of an expression ends. -/
def lastOperand? : Expr → Option Expr
  | .unary _ e => some e
  | .await e => some e
  | .assign _ v => some v
  | .function f => arrowBody? f
  | _ => none

/-- What stands behind the expression falls to an operand at its end. -/
def isOpen : Expr → Bool
  | .literal (.number d) => d.isNegative
  | .call f _ => isOpen f
  | .methodCall r _ _ => !isLooseReceiver r && isOpen r
  | .member o _ _ => isOpen o
  | .unary .. | .await _ | .assign .. => true
  | .function f => (arrowBody? f).isSome
  | _ => false

/-- Change the operand at the end. -/
def mapLast (g : Expr → Expr) : Expr → Expr
  | .unary op e => .unary op (g e)
  | .await e => .await (g e)
  | .assign t v => .assign t (g v)
  | .function f =>
      match arrowBody? f with
      | some e => .function { f with body := [.ret (some (g e))] }
      | none => .function f
  | e => e

/-- The expression as its text is read: calls and accesses belong to the last operand. -/
def regroup : Expr → Expr
  | .literal (.number d) => .unary .neg (.literal (.number d.withoutSign))
  | .call f args => mapLast (.call · args) (regroup f)
  | .methodCall r m args =>
      mapLast (fun o => .call (.member o (.literal (.string m)) false) args) (regroup r)
  | .member o p computed => mapLast (.member · p computed) (regroup o)
  | e => e

theorem isAccess_eq_false {e : Expr} (h : (lastOperand? e).isSome = true) : isAccess e = false := by
  cases e <;> first | rfl | cases h

/-- The arguments of a call. -/
def arguments (d : Nat) (args : List Expr) : Doc :=
  .text "(" :: Doc.joinWith ", " (exprs d args) ++ [.text ")"]

theorem expr_call
    (d : Nat) (f : Expr) (args : List Expr) :
    expr d (.call f args) = expr d f ++ arguments d args := by
  rw [expr, arguments, List.append_assoc]

/-- A method call is a call of a member, but for the parentheses around its receiver. -/
theorem render_methodCall
    (d w : Nat) (r : Expr) (m : String) (args : List Expr) :
    (expr d (.methodCall r m args)).render w =
      (groupedIf (isLooseReceiver r) (expr d r)).render w ++
        ('.' :: m.toList ++ (arguments d args).render w) := by
  rw [expr]
  simp [arguments]

section Regrouping

variable {P : String → Prop} {g : Expr → Expr}

theorem arrowBody?_with
    {f : Func} {e : Expr} (h : arrowBody? f = some e) (e' : Expr) :
    arrowBody? { f with body := [.ret (some e')] } = some e' := by
  rw [arrowBody?, (arrowBody?_eq_some h).1]
  rfl

theorem isSome_lastOperand?_mapLast
    {e : Expr} (h : (lastOperand? e).isSome = true) :
    (lastOperand? (mapLast g e)).isSome = true := by
  cases e with
  | function f =>
      obtain ⟨e, hbody⟩ : ∃ e, arrowBody? f = some e := Option.isSome_iff_exists.mp h
      simp only [mapLast, hbody, lastOperand?, arrowBody?_with hbody, Option.isSome_some]
  | unary op e => rfl
  | await e => rfl
  | assign t v => rfl
  | _ => cases h

/-- What is put behind the operand at the end is put behind the whole. -/
theorem render_mapLast
    {d w : Nat} {tail : List Char}
    (hg : ∀ x, (expr d (g x)).render w = (expr d x).render w ++ tail) {e : Expr}
    (h : (lastOperand? e).isSome = true) :
    (expr d (mapLast g e)).render w = (expr d e).render w ++ tail := by
  cases e with
  | function f =>
      obtain ⟨e, hbody⟩ : ∃ e, arrowBody? f = some e := Option.isSome_iff_exists.mp h
      simp only [mapLast, hbody]
      rw [expr_function_of_some d (arrowBody?_with hbody (g e)), expr_function_of_some d hbody]
      simp [hg, head]
  | unary op e => simp [mapLast, expr, hg]
  | await e => simp [mapLast, expr, hg]
  | assign t v => simp [mapLast, expr, hg]
  | _ => cases h

/-- An open expression has the text of one that is no call and no access. -/
theorem render_regroup
    (d w : Nat) :
    (e : Expr) → isOpen e = true →
      (lastOperand? (regroup e)).isSome = true ∧
        (expr d (regroup e)).render w = (expr d e).render w
  | .literal (.number n), h => by
      refine ⟨rfl, ?_⟩
      have htext := Double.toList_text_of_isNegative (Nat.pow 10 15) h
      simp [regroup, expr, literal, unaryOp, htext]
  | .call f args, h => by
      obtain ⟨hlast, htext⟩ := render_regroup d w f h
      have hcall (x : Expr) : (expr d (.call x args)).render w =
          (expr d x).render w ++ (arguments d args).render w := by
        rw [expr_call, Doc.render_append]
      refine ⟨isSome_lastOperand?_mapLast hlast, ?_⟩
      rw [regroup, render_mapLast hcall hlast, htext, hcall]
  | .methodCall r m args, h => by
      rw [isOpen, Bool.and_eq_true, Bool.not_eq_true'] at h
      obtain ⟨hlast, htext⟩ := render_regroup d w r h.2
      -- A method call would put a new receiver in parentheses if that is a function.
      have hcall (x : Expr) :
          (expr d (.call (.member x (.literal (.string m)) false) args)).render w =
            (expr d x).render w ++ ('.' :: m.toList ++ (arguments d args).render w) := by
        simp [expr_call, expr_member, memberAccess, pointName?]
      refine ⟨isSome_lastOperand?_mapLast hlast, ?_⟩
      rw [regroup, render_mapLast hcall hlast, htext, render_methodCall, h.1]
      rfl
  | .member o p computed, h => by
      obtain ⟨hlast, htext⟩ := render_regroup d w o h
      have hmember (x : Expr) : (expr d (.member x p computed)).render w =
          (expr d x).render w ++ (memberAccess d computed p).render w := by
        rw [expr_member, Doc.render_append]
      refine ⟨isSome_lastOperand?_mapLast hlast, ?_⟩
      rw [regroup, render_mapLast hmember hlast, htext, hmember]
  | .unary .., _ | .await _, _ | .assign .., _ => ⟨rfl, rfl⟩
  | .function f, h => ⟨h, rfl⟩

theorem allNames_mapLast
    (hg : ∀ x, AllNames P x.nodes → AllNames P (g x).nodes) {e : Expr}
    (h : AllNames P e.nodes) : AllNames P (mapLast g e).nodes := by
  cases e with
  | function f =>
      cases hbody : arrowBody? f with
      | some e =>
          obtain ⟨name, params, body, isAsync⟩ := f
          obtain ⟨rfl, rfl⟩ := arrowBody?_eq_some hbody
          simp only [mapLast, hbody, Expr.nodes, Func.nodes, Stmt.nodesList, Stmt.nodes,
            Expr.nodesOption, allNames_cons, allNames_append] at h ⊢
          exact ⟨h.1, ⟨h.2.1.1, hg e h.2.1.2⟩, h.2.2⟩
      | none =>
          simp only [mapLast, hbody]
          exact h
  | unary op e =>
      simp only [mapLast, Expr.nodes, allNames_cons] at h ⊢
      exact ⟨h.1, hg e h.2⟩
  | await e =>
      simp only [mapLast, Expr.nodes, allNames_cons] at h ⊢
      exact ⟨h.1, hg e h.2⟩
  | assign t v =>
      simp only [mapLast, Expr.nodes, allNames_cons, allNames_append] at h ⊢
      exact ⟨h.1, h.2.1, hg v h.2.2⟩
  | _ => exact h

/-- The names of an access do not depend on its object. -/
theorem bareNames_member
    (o o' p : Expr) (computed : Bool) :
    bareNames (.expr (.member o p computed)) = bareNames (.expr (.member o' p computed)) := by
  cases p with
  | literal l => cases l <;> cases computed <;> rfl
  | _ => rfl

/-- Regrouping takes no new names. -/
theorem allNames_regroup : (e : Expr) → AllNames P e.nodes → AllNames P (regroup e).nodes
  | .literal (.number _), _ => fun _ hx => absurd hx List.not_mem_nil
  | .call f args, h => by
      simp only [Expr.nodes, allNames_cons, allNames_append] at h
      refine allNames_mapLast (fun x hx => ?_) (allNames_regroup f h.2.1)
      simp only [Expr.nodes, allNames_cons, allNames_append]
      exact ⟨h.1, hx, h.2.2⟩
  | .methodCall r m args, h => by
      simp only [Expr.nodes, allNames_cons, allNames_append] at h
      refine allNames_mapLast (fun x hx => ?_) (allNames_regroup r h.2.1)
      simp only [Expr.nodes, allNames_cons, allNames_append]
      exact ⟨by simp [bareNames], ⟨h.1, hx, by simp [AllNames, bareNames]⟩, h.2.2⟩
  | .member o p computed, h => by
      simp only [Expr.nodes, allNames_cons, allNames_append] at h
      refine allNames_mapLast (fun x hx => ?_) (allNames_regroup o h.2.1)
      simp only [Expr.nodes, allNames_cons, allNames_append]
      exact ⟨bareNames_member o x p computed ▸ h.1, hx, h.2.2⟩
  | .literal .null, h | .literal (.bool _), h | .literal (.string _), h | .ident _, h
  | .binary .., h | .unary .., h | .array _, h | .object _, h | .function _, h
  | .conditional .., h | .assign .., h | .await _, h => h

end Regrouping

/-! ## Words -/

/-- The words of an outline. -/
def words (o : List Char) : List (List Char) := o.splitOnP (· == ' ')

/-- Words with a blank behind each of them. -/
def spaced (ws : List (List Char)) : List Char := ws.flatMap (· ++ [' '])

theorem words_append (o o' : List Char) : words (o ++ ' ' :: o') = words o ++ words o' :=
  List.splitOnP_append_cons o o' rfl

theorem words_eq_singleton {word : List Char} (h : ' ' ∉ word) : words word = [word] := by
  refine List.splitOnP_eq_singleton fun c hc => ?_
  rw [beq_eq_false_iff_ne]
  rintro rfl
  exact h hc

theorem words_spaced
    {ws : List (List Char)} (h : ∀ word ∈ ws, ' ' ∉ word) (o : List Char) :
    words (spaced ws ++ o) = ws ++ words o := by
  induction ws with
  | nil => rfl
  | cons word ws ih =>
      obtain ⟨hword, hws⟩ := List.forall_mem_cons.mp h
      have hsplit : spaced (word :: ws) ++ o = word ++ ' ' :: (spaced ws ++ o) := by
        simp [spaced]
      rw [hsplit, words_append, words_eq_singleton hword, ih hws, List.cons_append]
      rfl

/-- A word that is neither an equals sign nor `await`. -/
def IsHeadWord (word : List Char) : Prop :=
  ' ' ∉ word ∧ word ≠ ['='] ∧ word ≠ ['a', 'w', 'a', 'i', 't']

/-- The character negates what stands behind it. -/
def isSign (c : Char) : Bool := c == '-' || c == '!'

/-- The character may stand in a decimal. -/
def isDecimal (c : Char) : Bool := c.isDigit || c == '.'

/-- The word ends with a call or an access, and it is not a decimal. -/
def endsAccess (word : List Char) : Bool :=
  decide (2 < word.length) &&
    (Text.beforeWord isWord word).any (fun c => c == ')' || c == ']' || c == '.') &&
    word.any (fun c => !isDecimal c)

/-- The text begins with the parameters of a function, and a line ends behind its brace. -/
def BeginsBlock (t : List Char) : Prop :=
  ∃ before arrow rest, t = before ++ ')' :: (arrow ++ '\x7b' :: '\n' :: rest) ∧ ')' ∉ before ∧
    (arrow = [' '] ∨ arrow = [' ', '=', '>', ' '])

/-- The outline of the text consists of words.  If there are several of them, they begin a
function with a block. -/
structure Operand (t : List Char) (ws : List (List Char)) (word : List Char) : Prop where
  shows : Shows t (spaced ws ++ word)
  heads : ∀ v ∈ ws, IsHeadWord v
  gapless : ' ' ∉ word
  nonempty : word ≠ []
  unsigned : ∃ c rest, spaced ws ++ word = c :: rest ∧ isSign c = false
  block : ws = [] ∨ BeginsBlock t

section Reading

variable {t s o tail word : List Char} {ws : List (List Char)}

theorem BeginsBlock.append (h : BeginsBlock t) (s : List Char) : BeginsBlock (t ++ s) := by
  obtain ⟨before, arrow, rest, rfl, hbefore, harrow⟩ := h
  exact ⟨before, arrow, rest ++ s, by simp, hbefore, harrow⟩

/-- More text without a blank in its outline belongs to the last word. -/
theorem Operand.append
    (h : Operand t ws word) (hs : Shows s tail) (htail : ' ' ∉ tail) :
    Operand (t ++ s) ws (word ++ tail) where
  shows := by
    rw [← List.append_assoc]
    exact h.shows.append hs
  heads := h.heads
  gapless := List.not_mem_append h.gapless htail
  nonempty := List.append_ne_nil_of_left_ne_nil h.nonempty tail
  unsigned := by
    obtain ⟨c, rest, hfirst, hc⟩ := h.unsigned
    exact ⟨c, rest ++ tail, by rw [← List.append_assoc, hfirst, List.cons_append], hc⟩
  block := h.block.imp_right fun hblock => hblock.append s

/-- The words of an operand can be read off its text. -/
theorem Operand.words_eq (h : Operand t ws word) (hs : Shows t o) : words o = ws ++ [word] := by
  rw [hs.unique h.shows, words_spaced (fun v hv => (h.heads v hv).1), words_eq_singleton h.gapless]

/-- A word before another one belongs to the head of a function. -/
theorem Operand.isHeadWord
    {us vs : List (List Char)} {v : List Char} (h : Operand t ws word) (hs : Shows t o)
    (hwords : words o = us ++ v :: vs) (hvs : vs ≠ []) : IsHeadWord v := by
  refine h.heads v ?_
  rw [h.words_eq hs, ← List.dropLast_concat_getLast hvs, ← List.cons_append,
    ← List.append_assoc] at hwords
  rw [(List.append_inj' hwords rfl).1]
  simp

theorem endsAccess_pair
    {opening closing : Char} (hne : word ≠ []) (hc : closing = ')' ∨ closing = ']') :
    endsAccess (word ++ [opening, closing]) = true := by
  have hclosing : isWord closing = false :=
    not_isWord closing (by rcases hc with rfl | rfl <;> decide)
  have hlength := List.length_pos_iff.mpr hne
  rw [endsAccess, Text.beforeWord_pair word opening hclosing]
  rcases hc with rfl | rfl <;> simp [isDecimal] <;> omega

/-- The parts of a name. -/
theorem toList_name
    {x : String} (h : isDollarIdentifier x = true) :
    ∃ first rest, x.toList = first :: rest ∧ (Text.isNameStart first || first == '$') = true := by
  obtain ⟨first, rest, hchars, hfirst, -⟩ := Text.exists_of_isSpelled h
  exact ⟨first, rest, hchars, hfirst⟩

theorem endsAccess_point
    {name : String} (hne : word ≠ []) (hname : isDollarIdentifier name = true) :
    endsAccess (word ++ '.' :: name.toList) = true := by
  have hpoint : isWord '.' = false := not_isWord '.' (by decide)
  have hlength := List.length_pos_iff.mpr hne
  rw [endsAccess, Text.beforeWord_append_word word hpoint (isWord_of_mem hname)]
  obtain ⟨first, rest, hchars, hfirst⟩ := toList_name hname
  have hdigit : first.isDigit = false :=
    Text.not_isDigit_of (p := fun c => Text.isNameStart c || c == '$') hfirst (by decide +kernel)
  have hdecimal : first ≠ '.' := by
    rintro rfl
    exact absurd hfirst (by decide +kernel)
  rw [hchars]
  simp [isDecimal, hdigit, hdecimal]
  omega

end Reading

/-! ## The outlines of closed expressions -/

/-- The text is that of an operand, and its last word says if it ends with a call or an access. -/
def Reads (t : List Char) (access : Bool) : Prop :=
  ∃ ws word, Operand t ws word ∧ endsAccess word = access

section Reads

variable {t o : List Char} {access : Bool} {d w : Nat} {doc : Doc}

/-- An outline that is a single word. -/
theorem reads_word
    (h : Shows t o) (hgapless : ' ' ∉ o) (hsign : ∃ c rest, o = c :: rest ∧ isSign c = false)
    (haccess : endsAccess o = access) : Reads t access := by
  refine ⟨[], o, ⟨h, by simp, hgapless, ?_, hsign, .inl rfl⟩, haccess⟩
  obtain ⟨c, rest, rfl, -⟩ := hsign
  exact List.cons_ne_nil c rest

theorem notMem_of_isWord
    {c : Char} (hc : isWord c = false) {x : String} (h : isDollarIdentifier x = true) :
    c ∉ x.toList := by
  intro hmem
  rw [isWord_of_mem h c hmem] at hc
  cases hc

theorem reads_name {x : String} (h : isDollarIdentifier x = true) : Reads x.toList false := by
  refine reads_word (shows_name h) (notMem_of_isWord (not_isWord ' ' (by decide)) h) ?_ ?_
  · obtain ⟨first, rest, hchars, hfirst⟩ := toList_name h
    refine ⟨first, rest, hchars, ?_⟩
    rw [← Bool.not_eq_true, isSign, Bool.or_eq_true, beq_iff_eq, beq_iff_eq]
    rintro (rfl | rfl) <;> exact absurd hfirst (by decide +kernel)
  · rw [endsAccess, Text.beforeWord_word (isWord_of_mem h)]
    simp

theorem isDecimal_of_mem
    {n : Nat} {fraction : List Char} (h : ∀ c ∈ fraction, c.isDigit = true) :
    ∀ c ∈ Double.natDigits n ++ Double.pointed fraction, isDecimal c = true := by
  have hdigit {c : Char} (hc : c.isDigit = true) : isDecimal c = true := by
    rw [isDecimal, hc, Bool.true_or]
  refine List.forall_mem_append.mpr ⟨fun c hc => hdigit (Double.isDigit_natDigits n c hc), ?_⟩
  cases fraction with
  | nil => exact fun c hc => absurd hc List.not_mem_nil
  | cons first rest => exact List.forall_mem_cons.mpr ⟨rfl, fun c hc => hdigit (h c hc)⟩

theorem reads_number
    {n : Double} (h : n.isNegative = false) : Reads (literal (.number n)).toList false := by
  have hshows := n.shows_text (.below (Nat.pow 10 15)) (by decide)
  obtain ⟨body, htext, hbody⟩ := n.toList_text_cases (.below (Nat.pow 10 15)) (by decide)
  rw [htext, h, Double.signed, if_neg Bool.false_ne_true] at hshows
  rw [literal, htext, h, Double.signed, if_neg Bool.false_ne_true]
  rcases hbody with rfl | rfl | ⟨k, fraction, rfl, hfraction⟩
  · exact reads_word hshows (by decide) ⟨_, _, rfl, by decide⟩ (by decide +kernel)
  · exact reads_word hshows (by decide) ⟨_, _, rfl, by decide⟩ (by decide +kernel)
  · have hdecimal := isDecimal_of_mem (n := k) hfraction
    refine reads_word hshows (fun hc => absurd (hdecimal ' ' hc) (by decide)) ?_ ?_
    · obtain ⟨first, rest, hdigits, hfirst⟩ := Double.natDigits_eq_cons k
      refine ⟨first, rest ++ Double.pointed fraction, by rw [hdigits]; rfl, ?_⟩
      rw [← Bool.not_eq_true, isSign, Bool.or_eq_true, beq_iff_eq, beq_iff_eq]
      rintro (rfl | rfl) <;> exact absurd hfirst (by decide)
    · have hnone : (Double.natDigits k ++ Double.pointed fraction).any
          (fun c => !isDecimal c) = false := by
        rw [List.any_eq_false]
        intro c hc
        rw [hdecimal c hc]
        decide
      rw [endsAccess, hnone, Bool.and_false]

theorem reads_literal
    {l : Literal} (h : isOpen (.literal l) = false) : Reads (literal l).toList false := by
  cases l with
  | null =>
      exact reads_word (o := ['n', 'u', 'l', 'l']) (by decide) (by decide) ⟨_, _, rfl, by decide⟩
        (by decide +kernel)
  | bool value =>
      cases value with
      | true =>
          exact reads_word (o := ['t', 'r', 'u', 'e']) (by decide) (by decide)
            ⟨_, _, rfl, by decide⟩ (by decide +kernel)
      | false =>
          exact reads_word (o := ['f', 'a', 'l', 's', 'e']) (by decide) (by decide)
            ⟨_, _, rfl, by decide⟩ (by decide +kernel)
  | number n => exact reads_number h
  | string s =>
      exact reads_word (Text.shows_quoted s) (by decide) ⟨_, _, rfl, by decide⟩
        (by decide +kernel)

theorem reads_brackets
    {opening closing : Char} {t : List Char} (h : Nest 0 0 t)
    (hbrackets : (opening, closing) ∈ [('(', ')'), ('[', ']'), ('\x7b', '\x7d')]) :
    Reads (opening :: (t ++ [closing])) false := by
  simp only [List.mem_cons, Prod.mk.injEq, List.not_mem_nil, or_false] at hbrackets
  rcases hbrackets with ⟨rfl, rfl⟩ | ⟨rfl, rfl⟩ | ⟨rfl, rfl⟩ <;>
    exact reads_word (h.enclosed (by decide) (by decide)) (by decide) ⟨_, _, rfl, by decide⟩
      (by decide)

theorem shows_arguments
    {args : List Expr} (h : ∀ doc ∈ exprs d args, DocNest 0 0 doc) :
    Shows ((arguments d args).render w) ['(', ')'] := by
  have hargs := DocNest.joinWith ", " (by decide) h
  simpa [arguments] using (hargs w).enclosed (by decide : Text.isOpening '(' = true)
    (by decide : Text.isClosing ')' = true)

theorem Reads.call
    {args : List Expr} (h : Reads t access) (hargs : ∀ doc ∈ exprs d args, DocNest 0 0 doc) :
    Reads (t ++ (arguments d args).render w) true := by
  obtain ⟨ws, word, hoperand, -⟩ := h
  exact ⟨ws, word ++ ['(', ')'], hoperand.append (shows_arguments hargs) (by decide),
    endsAccess_pair hoperand.nonempty (.inl rfl)⟩

theorem Reads.point
    {name : String} (h : Reads t access) (hname : isDollarIdentifier name = true) :
    Reads (t ++ '.' :: name.toList) true := by
  obtain ⟨ws, word, hoperand, -⟩ := h
  have hpoint : Shows ['.'] ['.'] := by decide
  have hgapless : ' ' ∉ '.' :: name.toList :=
    List.not_mem_cons_of_ne_of_not_mem (by decide)
      (notMem_of_isWord (not_isWord ' ' (by decide)) hname)
  have hshows := hpoint.append (shows_name hname)
  exact ⟨ws, word ++ '.' :: name.toList, hoperand.append hshows hgapless,
    endsAccess_point hoperand.nonempty hname⟩

theorem Reads.member
    {o p : Expr} {computed : Bool} (h : Reads t access)
    (hnames : ∀ x ∈ bareNames (.expr (.member o p computed)), isDollarIdentifier x = true)
    (hp : DocNest 0 0 (expr d p)) : Reads (t ++ (memberAccess d computed p).render w) true := by
  unfold memberAccess
  cases hname : pointName? computed p with
  | some s =>
      obtain ⟨rfl, rfl⟩ := pointName?_eq_some hname
      simpa using h.point (hnames s List.mem_cons_self)
  | none =>
      obtain ⟨ws, word, hoperand, -⟩ := h
      have hbrackets := (hp w).enclosed (by decide : Text.isOpening '[' = true)
        (by decide : Text.isClosing ']' = true)
      exact ⟨ws, word ++ ['[', ']'], by simpa using hoperand.append hbrackets (by decide),
        endsAccess_pair hoperand.nonempty (.inr rfl)⟩

end Reads

/-! ## The heads of functions -/

/-- What stands before the parameters of a function, but for the mark. -/
def opening (f : Func) : List Char :=
  if f.name.isEmpty then [] else "function ".toList ++ f.name.toList

/-- What stands between the parameters of a function and its body. -/
def arrow (f : Func) : List Char := if f.name.isEmpty then " => ".toList else [' ']

/-- The words in the outline of the head of a function. -/
def headWords (f : Func) : List (List Char) :=
  (if f.isAsync then ["async".toList] else []) ++
    if f.name.isEmpty then [['(', ')'], ['=', '>']]
    else ["function".toList, f.name.toList ++ ['(', ')']]

theorem toList_head
    (f : Func) :
    (head f).toList =
      (asyncMark f.isAsync).toList ++ opening f ++ '(' :: (commaSeparated f.params).toList ++
        ')' :: arrow f := by
  unfold head opening arrow arrowHead functionHead
  cases f.name.isEmpty <;> simp

theorem spaced_headWords
    (f : Func) :
    spaced (headWords f) =
      (asyncMark f.isAsync).toList ++ (opening f ++ (['(', ')'] ++ arrow f)) := by
  unfold spaced headWords opening arrow asyncMark
  cases f.isAsync <;> cases f.name.isEmpty <;> simp

theorem notMem_commaSeparated
    {c : Char} {texts : List String} (hc : c ∉ [',', ' ']) (h : ∀ t ∈ texts, c ∉ t.toList) :
    c ∉ (commaSeparated texts).toList := by
  rw [commaSeparated, String.toList_intercalate]
  induction texts with
  | nil => simp
  | cons text texts ih =>
      obtain ⟨htext, htexts⟩ := List.forall_mem_cons.mp h
      cases texts with
      | nil => simpa using htext
      | cons next texts =>
          rw [List.map_cons, List.map_cons, List.intercalate_cons_cons, ← List.map_cons]
          exact List.not_mem_append (List.not_mem_append htext hc) (ih htexts)

section Heads

variable {f : Func} {t : List Char} {d w : Nat}

/-- The names of a function with a name, or without one. -/
theorem names_cases
    (h : ∀ x ∈ functionNames f, isDollarIdentifier x = true) :
    (f.name.isEmpty = true ∨ f.name.isEmpty = false ∧ isDollarIdentifier f.name = true) ∧
      ∀ x ∈ f.params, isDollarIdentifier x = true := by
  unfold functionNames at h
  cases hname : f.name.isEmpty with
  | true =>
      rw [if_pos hname] at h
      exact ⟨.inl rfl, h⟩
  | false =>
      rw [hname, if_neg Bool.false_ne_true] at h
      exact ⟨.inr ⟨rfl, h f.name List.mem_cons_self⟩, fun x hx => h x (List.mem_cons_of_mem _ hx)⟩

theorem shows_head
    (h : ∀ x ∈ functionNames f, isDollarIdentifier x = true) :
    Shows (head f).toList (spaced (headWords f)) := by
  obtain ⟨hname, hparams⟩ := names_cases h
  have hmark : Shows (asyncMark f.isAsync).toList (asyncMark f.isAsync).toList := by
    cases f.isAsync <;> decide
  have hopening : Shows (opening f) (opening f) := by
    unfold opening
    rcases hname with hempty | ⟨hempty, hname⟩
    · rw [if_pos hempty]
      decide
    · have hfunction : Shows "function ".toList "function ".toList := by decide
      rw [hempty]
      exact hfunction.append (shows_name hname)
  have hparens := (nest_params (i := 0) hparams).enclosed (by decide : Text.isOpening '(' = true)
    (by decide : Text.isClosing ')' = true)
  have harrow : Shows (arrow f) (arrow f) := by
    unfold arrow
    cases f.name.isEmpty <;> decide
  rw [toList_head, spaced_headWords]
  simpa using hmark.append (hopening.append (hparens.append harrow))

theorem isHeadWord_of_mem
    (h : ∀ x ∈ functionNames f, isDollarIdentifier x = true) :
    ∀ v ∈ headWords f, IsHeadWord v := by
  have hmark : ∀ v ∈ (if f.isAsync then ["async".toList] else []), IsHeadWord v := by
    unfold IsHeadWord
    cases f.isAsync <;> decide
  refine List.forall_mem_append.mpr ⟨hmark, ?_⟩
  rcases (names_cases h).1 with hempty | ⟨hempty, hname⟩
  · rw [if_pos hempty]
    unfold IsHeadWord
    decide
  · have hfunction : IsHeadWord "function".toList := by
      unfold IsHeadWord
      decide
    have hgapless : ' ' ∉ f.name.toList ++ ['(', ')'] :=
      List.not_mem_append (notMem_of_isWord (not_isWord ' ' (by decide)) hname) (by decide)
    -- The last character is a parenthesis.
    have hlast {v : List Char} (hv : v.getLast? ≠ some ')') : f.name.toList ++ ['(', ')'] ≠ v := by
      rintro rfl
      exact hv (by simp)
    rw [hempty]
    simp only [Bool.false_eq_true, if_false, List.forall_mem_cons]
    exact ⟨hfunction, ⟨hgapless, hlast (by decide), hlast (by decide)⟩, by simp⟩

/-- The first closing parenthesis stands behind the parameters. -/
theorem head_eq_append
    (h : ∀ x ∈ functionNames f, isDollarIdentifier x = true) :
    ∃ before, (head f).toList = before ++ ')' :: arrow f ∧ ')' ∉ before := by
  obtain ⟨hname, hparams⟩ := names_cases h
  have hparen {x : String} (hx : isDollarIdentifier x = true) : ')' ∉ x.toList :=
    notMem_of_isWord (not_isWord ')' (by decide)) hx
  have hmark : ')' ∉ (asyncMark f.isAsync).toList := by
    cases f.isAsync <;> decide
  have hopening : ')' ∉ opening f := by
    unfold opening
    rcases hname with hempty | ⟨hempty, hname⟩
    · rw [if_pos hempty]
      decide
    · rw [hempty]
      exact List.not_mem_append (by decide) (hparen hname)
  have hcommas : ')' ∉ '(' :: (commaSeparated f.params).toList :=
    List.not_mem_cons_of_ne_of_not_mem (by decide)
      (notMem_commaSeparated (by decide) fun x hx => hparen (hparams x hx))
  exact ⟨_, toList_head f, List.not_mem_append (List.not_mem_append hmark hopening) hcommas⟩

theorem beginsBlock_of_head
    (h : ∀ x ∈ functionNames f, isDollarIdentifier x = true) (t : List Char) :
    BeginsBlock ((head f).toList ++ '\x7b' :: '\n' :: t) := by
  obtain ⟨before, hhead, hbefore⟩ := head_eq_append h
  refine ⟨before, arrow f, t, by rw [hhead]; simp, hbefore, ?_⟩
  unfold arrow
  cases f.name.isEmpty
  · exact .inl rfl
  · exact .inr rfl

/-- Behind the brace of a function a line ends. -/
theorem render_braces
    (d w : Nat) (body : List Stmt) :
    ∃ rest, (braces d (stmts (d + 1) body)).render w = '\x7b' :: '\n' :: rest := by
  cases body with
  | nil => exact ⟨_, rfl⟩
  | cons s body =>
      rw [stmts]
      exact ⟨_, rfl⟩

/-- A function with a block ends with the brace of the block. -/
theorem reads_function
    (hnames : ∀ x ∈ functionNames f, isDollarIdentifier x = true)
    (hbody : DocNest 0 0 (stmts (d + 1) f.body)) :
    Reads ((head f).toList ++ (braces d (stmts (d + 1) f.body)).render w) false := by
  have hbraces : Shows ((braces d (stmts (d + 1) f.body)).render w) ['\x7b', '\x7d'] := by
    have hlines : DocNest 0 0 (stmts (d + 1) f.body ++ [.lineBreak d]) :=
      hbody.append (.lineBreak .nil)
    simpa [braces] using (hlines w).enclosed (by decide : Text.isOpening '\x7b' = true)
      (by decide : Text.isClosing '\x7d' = true)
  have hunsigned : ∃ c rest, spaced (headWords f) ++ ['\x7b', '\x7d'] = c :: rest ∧
      isSign c = false := by
    rw [spaced_headWords, opening]
    cases f.isAsync <;> cases f.name.isEmpty <;> exact ⟨_, _, rfl, by decide⟩
  obtain ⟨rest, hrest⟩ := render_braces d w f.body
  exact ⟨headWords f, ['\x7b', '\x7d'],
    { shows := (shows_head hnames).append hbraces
      heads := isHeadWord_of_mem hnames
      gapless := by decide
      nonempty := List.cons_ne_nil _ _
      unsigned := hunsigned
      block := .inr (hrest ▸ beginsBlock_of_head hnames rest) },
    by decide⟩

end Heads

/-- The outline of an expression that is not open says if it is a call or an access. -/
theorem reads_expr
    (w : Nat) :
    (e : Expr) → SpelledNames e.nodes → isOpen e = false → (d : Nat) →
      Reads ((expr d e).render w) (isAccess e)
  | .literal l, _, hopen, d => by
      rw [expr]
      simpa [isAccess] using reads_literal hopen
  | .ident x, h, _, d => by
      rw [Expr.nodes, spelledNames_cons] at h
      rw [expr]
      simpa [isAccess] using reads_name (h.1 x List.mem_cons_self)
  | .binary l op r, h, _, d => by
      rw [Expr.nodes, spelledNames_cons, spelledNames_append] at h
      have hinner := (docNest_expr l h.2.1 d).append
        (.text (nest_binaryOp op) (docNest_expr r h.2.2 d))
      rw [expr]
      simpa [isAccess] using reads_brackets (hinner w) (by decide : ('(', ')') ∈ _)
  | .call f args, h, hopen, d => by
      rw [Expr.nodes, spelledNames_cons, spelledNames_append] at h
      rw [expr_call, Doc.render_append]
      exact (reads_expr w f h.2.1 hopen d).call (docNest_exprs args h.2.2 d)
  | .methodCall r m args, h, hopen, d => by
      rw [Expr.nodes, spelledNames_cons, spelledNames_append] at h
      have hreceiver : ∃ access,
          Reads ((groupedIf (isLooseReceiver r) (expr d r)).render w) access := by
        cases hloose : isLooseReceiver r with
        | true =>
            have hparens := reads_brackets (docNest_expr r h.2.1 d w) (by decide : ('(', ')') ∈ _)
            exact ⟨false, by simpa [groupedIf] using hparens⟩
        | false =>
            rw [isOpen, hloose] at hopen
            exact ⟨_, reads_expr w r h.2.1 hopen d⟩
      obtain ⟨access, hreceiver⟩ := hreceiver
      have hpoint := hreceiver.point (h.1 m List.mem_cons_self)
      rw [render_methodCall, ← List.append_assoc]
      exact hpoint.call (docNest_exprs args h.2.2 d)
  | .member o p computed, h, hopen, d => by
      rw [Expr.nodes, spelledNames_cons, spelledNames_append] at h
      rw [expr_member, Doc.render_append]
      exact (reads_expr w o h.2.1 hopen d).member h.1 (docNest_expr p h.2.2 d)
  | .array es, h, _, d => by
      rw [Expr.nodes, spelledNames_cons] at h
      have hinner := DocNest.joinWith ", " (by decide) (docNest_exprs es h.2 d)
      rw [expr]
      simpa [isAccess] using reads_brackets (hinner w) (by decide : ('[', ']') ∈ _)
  | .object ps, h, _, d => by
      rw [Expr.nodes, spelledNames_cons] at h
      have hinner : DocNest 0 0 (.text " " :: Doc.joinWith ", " (pairs d ps) ++ [.text " "]) :=
        (DocNest.text (by decide : Nest 0 0 " ".toList)
          (.joinWith ", " (by decide) (docNest_pairs ps h.2 d))).append (.text (by decide) .nil)
      rw [expr]
      simpa [isAccess] using reads_brackets (hinner w) (by decide : ('\x7b', '\x7d') ∈ _)
  | .function ⟨name, params, body, isAsync⟩, h, hopen, d => by
      rw [isOpen, Option.isSome_eq_false_iff, Option.isNone_iff_eq_none] at hopen
      rw [Expr.nodes, spelledNames_cons, Func.nodes] at h
      rw [expr_function_of_none d hopen]
      exact reads_function h.1 (docNest_stmts body h.2 (d + 1))
  | .conditional t c a, h, _, d => by
      rw [Expr.nodes, spelledNames_cons, spelledNames_append, spelledNames_append] at h
      have hinner := (docNest_expr t h.2.1 d).append (.text (by decide : Nest 0 0 " ? ".toList)
        ((docNest_expr c h.2.2.1 d).append (.text (by decide : Nest 0 0 " : ".toList)
          (docNest_expr a h.2.2.2 d))))
      rw [expr]
      simpa [isAccess] using reads_brackets (hinner w) (by decide : ('(', ')') ∈ _)

/-! ## The texts of open expressions -/

/-- How the text of an expression begins: behind a brace no line ends. -/
inductive Begins : List Char → Prop
  | char {c : Char} {t : List Char} (h : c ≠ '\x7b') : Begins (c :: t)
  | object {t : List Char} : Begins ('\x7b' :: ' ' :: t)

theorem Begins.append {t : List Char} (h : Begins t) (s : List Char) : Begins (t ++ s) := by
  cases h with
  | char hc => exact .char hc
  | object => exact .object

theorem begins_literal (l : Literal) : Begins (literal l).toList := by
  cases l with
  | null => exact .char (by decide)
  | bool value => cases value <;> exact .char (by decide)
  | number n =>
      obtain ⟨body, htext, hne, hbody⟩ := n.toList_text (.below (Nat.pow 10 15)) (by decide)
      obtain ⟨first, rest, rfl⟩ := List.exists_cons_of_ne_nil hne
      have hfirst : first ≠ '\x7b' := by
        rintro rfl
        exact absurd (hbody _ List.mem_cons_self) (by decide)
      rw [literal, htext]
      cases n.isNegative with
      | true => exact .char (by decide)
      | false => exact .char hfirst
  | string s =>
      rw [literal, Text.toList_quotedInStages]
      exact .char (by decide)

theorem begins_head (f : Func) : Begins (head f).toList := by
  rw [toList_head, opening]
  cases f.isAsync <;> cases f.name.isEmpty <;> exact .char (by decide)

theorem begins_expr
    (d w : Nat) : (e : Expr) → SpelledNames e.nodes → Begins ((expr d e).render w)
  | .literal l, _ => by
      rw [expr]
      exact (begins_literal l).append []
  | .ident x, h => by
      rw [Expr.nodes, spelledNames_cons] at h
      have hx := h.1 x List.mem_cons_self
      obtain ⟨first, rest, hchars, -⟩ := toList_name hx
      have hfirst : first ≠ '\x7b' := by
        rintro rfl
        exact notMem_of_isWord (not_isWord _ (by decide)) hx (hchars ▸ List.mem_cons_self)
      rw [expr, Doc.render_text, hchars]
      exact .char hfirst
  | .unary op e, _ => by
      rw [expr]
      cases op <;> exact .char (by decide)
  | .call f args, h => by
      rw [Expr.nodes, spelledNames_cons, spelledNames_append] at h
      rw [expr_call, Doc.render_append]
      exact (begins_expr d w f h.2.1).append _
  | .methodCall r m args, h => by
      rw [Expr.nodes, spelledNames_cons, spelledNames_append] at h
      rw [render_methodCall]
      cases isLooseReceiver r with
      | true => exact .char (by decide)
      | false => exact (begins_expr d w r h.2.1).append _
  | .member o p computed, h => by
      rw [Expr.nodes, spelledNames_cons, spelledNames_append] at h
      rw [expr_member, Doc.render_append]
      exact (begins_expr d w o h.2.1).append _
  | .object ps, _ => by
      rw [expr]
      exact .object
  | .function f, _ => by
      cases hbody : arrowBody? f with
      | some e =>
          rw [expr_function_of_some d hbody]
          exact (begins_head f).append _
      | none =>
          rw [expr_function_of_none d hbody]
          exact (begins_head f).append _
  | .assign t v, h => by
      rw [Expr.nodes, spelledNames_cons, spelledNames_append] at h
      rw [expr, Doc.render_append]
      exact (begins_expr d w t h.2.1).append _
  | .binary .., _ | .array _, _ | .conditional .., _ | .await _, _ => by
      rw [expr]
      exact .char (by decide)

/-- The texts behind the first closing parenthesis. -/
theorem eq_of_append_paren
    {before before' rest rest' : List Char} (h : before ++ ')' :: rest = before' ++ ')' :: rest')
    (hbefore : ')' ∉ before) (hbefore' : ')' ∉ before') : rest = rest' := by
  have hdrop {a b : List Char} (ha : ')' ∉ a) :
      (a ++ ')' :: b).dropWhile (· != ')') = ')' :: b := by
    rw [List.dropWhile_append_of_pos fun c hc => bne_iff_ne.mpr (ne_of_mem_of_not_mem hc ha)]
    rfl
  have htails := congrArg (List.dropWhile (· != ')')) h
  rw [hdrop hbefore, hdrop hbefore'] at htails
  exact (List.cons.inj htails).2

/-- Behind an arrow an expression does not look like a block. -/
theorem not_beginsBlock
    {f : Func} {t : List Char} (hnames : ∀ x ∈ functionNames f, isDollarIdentifier x = true)
    (hname : f.name = "") (ht : Begins t) : ¬BeginsBlock ((head f).toList ++ t) := by
  rintro ⟨before, mark, rest, htext, hbefore, hmark⟩
  obtain ⟨before', hhead, hbefore'⟩ := head_eq_append hnames
  have harrow : arrow f = [' ', '=', '>', ' '] := by
    rw [arrow, hname]
    rfl
  rw [hhead, harrow, List.append_assoc, List.cons_append] at htext
  have hrest := eq_of_append_paren htext hbefore' hbefore
  rcases hmark with rfl | rfl
  · cases hrest
  · cases hrest
    cases ht with
    | char hc => exact hc rfl

section Open

variable {t s o o' word : List Char} {ws : List (List Char)} {f : Func} {d w : Nat}

theorem Operand.isSign_eq_false
    {c : Char} (h : Operand t ws word) (hs : Shows t (c :: o)) : isSign c = false := by
  obtain ⟨first, rest, hfirst, hsign⟩ := h.unsigned
  have heq := hs.unique h.shows
  rw [hfirst] at heq
  cases heq
  exact hsign

theorem not_operand_await (ht : Shows t o) : ¬Operand ("await ".toList ++ t) ws word := by
  intro hoperand
  have hawait : Shows "await ".toList "await ".toList := by decide
  have hwords : words ("await ".toList ++ o) = [] ++ "await".toList :: words o :=
    words_append "await".toList o
  exact (hoperand.isHeadWord (hawait.append ht) hwords (List.splitOnP_ne_nil _ o)).2.2 rfl

theorem not_operand_assign
    (ht : Shows t o) (hs : Shows s o') : ¬Operand (t ++ (" = ".toList ++ s)) ws word := by
  intro hoperand
  have hequals : Shows " = ".toList " = ".toList := by decide
  have hwords : words (o ++ (" = ".toList ++ o')) = words o ++ ['='] :: words o' := by
    have hsplit := words_append ['='] o'
    exact (words_append o ('=' :: ' ' :: o')).trans (congrArg (words o ++ ·) hsplit)
  have hshows := ht.append (hequals.append hs)
  exact (hoperand.isHeadWord hshows hwords (List.splitOnP_ne_nil _ o')).2.1 rfl

theorem not_operand_arrow
    (hnames : ∀ x ∈ functionNames f, isDollarIdentifier x = true) (hname : f.name = "")
    (ht : Shows t o) (hbegins : Begins t) : ¬Operand ((head f).toList ++ t) ws word := by
  intro hoperand
  rcases hoperand.block with rfl | hblock
  · -- The head of a function has two words or more, and a body stands behind it.
    have hwords := hoperand.words_eq ((shows_head hnames).append ht)
    rw [words_spaced fun v hv => (isHeadWord_of_mem hnames v hv).1] at hwords
    have hlength := congrArg List.length hwords
    have hhead : 2 ≤ (headWords f).length := by
      unfold headWords
      cases f.isAsync <;> cases f.name.isEmpty <;> simp
    simp at hlength
    omega
  · exact not_beginsBlock hnames hname hbegins hblock

/-- An expression that ends with an operand of its own is not read like one that is not open. -/
theorem not_operand
    (e : Expr) (h : SpelledNames e.nodes) (hopen : isOpen e = true) (haccess : isAccess e = false) :
    ¬Operand ((expr d e).render w) ws word := by
  cases e with
  | literal l =>
      cases l with
      | number n =>
          intro hoperand
          have hshows := n.shows_text (.below (Nat.pow 10 15)) (by decide)
          have htext := Double.toList_text_of_isNegative (Nat.pow 10 15) hopen
          rw [expr, Doc.render_text, Doc.render_nil, List.append_nil, literal] at hoperand
          rw [htext] at hshows hoperand
          exact absurd (hoperand.isSign_eq_false hshows) (by decide)
      | _ => cases hopen
  | unary op e =>
      intro hoperand
      rw [Expr.nodes, spelledNames_cons] at h
      obtain ⟨o, ho⟩ := (docNest_expr e h.2 d w).exists_shows
      rw [expr, Doc.render_text] at hoperand
      cases op with
      | neg =>
          have hminus : Shows ['-'] ['-'] := by decide
          exact absurd (hoperand.isSign_eq_false (hminus.append ho)) (by decide)
      | not =>
          have hbang : Shows ['!'] ['!'] := by decide
          exact absurd (hoperand.isSign_eq_false (hbang.append ho)) (by decide)
  | await e =>
      rw [Expr.nodes, spelledNames_cons] at h
      obtain ⟨o, ho⟩ := (docNest_expr e h.2 d w).exists_shows
      rw [expr, Doc.render_text]
      exact not_operand_await ho
  | assign t v =>
      rw [Expr.nodes, spelledNames_cons, spelledNames_append] at h
      obtain ⟨o, ho⟩ := (docNest_expr t h.2.1 d w).exists_shows
      obtain ⟨o', ho'⟩ := (docNest_expr v h.2.2 d w).exists_shows
      rw [expr, Doc.render_append, Doc.render_text]
      exact not_operand_assign ho ho'
  | function f =>
      obtain ⟨e, hbody⟩ : ∃ e, arrowBody? f = some e := Option.isSome_iff_exists.mp hopen
      obtain ⟨name, params, body, isAsync⟩ := f
      obtain ⟨rfl, rfl⟩ := arrowBody?_eq_some hbody
      simp only [Expr.nodes, Func.nodes, Stmt.nodesList, Stmt.nodes, Expr.nodesOption,
        spelledNames_cons, spelledNames_append] at h
      obtain ⟨o, ho⟩ := (docNest_expr e h.2.1.2 d w).exists_shows
      rw [expr_function_of_some d hbody, Doc.render_text]
      exact not_operand_arrow h.1 rfl ho (begins_expr d w e h.2.1.2)
  | call f args => cases haccess
  | methodCall r m args => cases haccess
  | member o p computed => cases haccess
  | _ => cases hopen

end Open

/-! ## Equal texts -/

/-- What an expression writes behind a text is that of its document. -/
theorem written_eq
    (e : Expr) (b : Text.Buffer) :
    ((writeExpr e).run b).2.written =
      ((expr b.depth e).render b.width).reverse ++ b.written := by
  rw [writeExpr_puts e b.depth b rfl]
  rfl

/-- An expression with the text of a call or an access that is not open is one, too. -/
theorem isAccess_of_render
    {d w : Nat} {e₁ e₂ : Expr} (h₁ : SpelledNames e₁.nodes) (h₂ : SpelledNames e₂.nodes)
    (hroot : isAccess e₁ = true) (hclosed : isOpen e₁ = false)
    (htext : (expr d e₁).render w = (expr d e₂).render w) : isAccess e₂ = true := by
  obtain ⟨ws, word, hoperand, haccess⟩ := reads_expr w e₁ h₁ hclosed d
  rw [← Bool.not_eq_false]
  intro hother
  -- An open expression has no such outline, and any other has the same last word.
  cases hopen : isOpen e₂ with
  | true => exact not_operand e₂ h₂ hopen hother (htext ▸ hoperand)
  | false =>
      obtain ⟨ws', word', hoperand', haccess'⟩ := reads_expr w e₂ h₂ hopen d
      rw [← htext] at hoperand'
      have hwords := hoperand.words_eq hoperand'.shows
      rw [hoperand'.words_eq hoperand'.shows] at hwords
      have hword : word' = word := by simpa using (List.append_inj' hwords rfl).2
      rw [← hword, haccess', hroot, hother] at haccess
      cases haccess

/-- A call, a method call or an access to a member that is not open can be told from all other
expressions by its text.  An open one has the text of a negation, an awaited value, an assignment
or a function with the same names. -/
theorem isAccess_of_written
    {e₁ : Expr} (h₁ : SpelledNames e₁.nodes) (hroot : isAccess e₁ = true) (b : Text.Buffer) :
    (isOpen e₁ = false → ∀ e₂, SpelledNames e₂.nodes →
      ((writeExpr e₁).run b).2.written = ((writeExpr e₂).run b).2.written →
        isAccess e₂ = true) ∧
    (isOpen e₁ = true → ∃ e₂, AllNames (· ∈ e₁.nodes.flatMap bareNames) e₂.nodes ∧
      ((writeExpr e₁).run b).2.written = ((writeExpr e₂).run b).2.written ∧
        (lastOperand? e₂).isSome = true ∧ isAccess e₂ = false) := by
  constructor
  · intro hclosed e₂ h₂ htext
    rw [written_eq, written_eq, List.append_cancel_right_eq, List.reverse_inj] at htext
    exact isAccess_of_render h₁ h₂ hroot hclosed htext
  · intro hopen
    obtain ⟨hlast, htext⟩ := render_regroup b.depth b.width e₁ hopen
    refine ⟨regroup e₁, allNames_regroup e₁ fun x hx => hx, ?_, hlast, isAccess_eq_false hlast⟩
    rw [written_eq, written_eq, htext]

/-- A method call on an awaited value. -/
def awaitedMethod : Expr := .methodCall (.await (.ident "job")) "done" []

/-- The awaited value gets parentheses, so no other expression has the text of the call. -/
theorem isAccess_of_written_awaitedMethod :
    SpelledNames awaitedMethod.nodes ∧ isAccess awaitedMethod = true ∧
      ∀ e₂, SpelledNames e₂.nodes →
        ((writeExpr awaitedMethod).run (.empty 2)).2.written =
          ((writeExpr e₂).run (.empty 2)).2.written → isAccess e₂ = true := by
  have hnames : SpelledNames awaitedMethod.nodes := by
    unfold SpelledNames AllNames
    decide +kernel
  exact ⟨hnames, rfl, (isAccess_of_written hnames rfl (.empty 2)).1 rfl⟩

/-- A call of a negation, and the negation of a call. -/
def calledNegation : Expr := .call (.unary .neg (.ident "x")) []

def negatedCall : Expr := .unary .neg (.call (.ident "x") [])

/-- A negation gets no parentheses before a call, so its operand takes in the call. -/
theorem written_calledNegation :
    SpelledNames calledNegation.nodes ∧ SpelledNames negatedCall.nodes ∧
      isAccess calledNegation = true ∧ isAccess negatedCall = false ∧
      ((writeExpr calledNegation).run (.empty 2)).2.written =
        ((writeExpr negatedCall).run (.empty 2)).2.written := by
  unfold SpelledNames AllNames
  decide +kernel

end TypeScript

end Bracket
