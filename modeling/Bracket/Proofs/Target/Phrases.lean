import Bracket.Proofs.Text.Suites
import Bracket.Target.Python
import Bracket.Text.Identifier

/-!
# Phrases of Python code

Expressions, patterns and resources fill a part of a line.  If all words of a program are
identifiers, such a phrase has no line feed, does not begin with a space, and does not end with
a colon, so it can neither be taken for an indentation nor for the head of a compound
statement.  The words are the strings that are printed as they are: names, members, methods,
parameters and keys.
-/

namespace Bracket

/-! ## The words of a program -/

/-- The name of a member that is not computed. -/
def Expr.memberWords : Expr → Bool → List String
  | .literal (.string s), false => [s]
  | _, _ => []

mutual

/-- The strings of an expression that are printed without quotes around them. -/
def Expr.words : Expr → List String
  | .literal _ => []
  | .ident x => [x]
  | .binary l _ r => l.words ++ r.words
  | .unary _ e => e.words
  | .call f args => f.words ++ Expr.wordsList args
  | .methodCall r m args => r.words ++ m :: Expr.wordsList args
  | .member o p computed => o.words ++ (p.words ++ p.memberWords computed)
  | .array es => Expr.wordsList es
  | .object ps => Expr.wordsPairs ps
  | .function f => f.words
  | .conditional t c a => t.words ++ c.words ++ a.words
  | .assign t v => t.words ++ v.words
  | .await e => e.words

def Expr.wordsList : List Expr → List String
  | [] => []
  | e :: es => e.words ++ Expr.wordsList es

def Expr.wordsOption : Option Expr → List String
  | none => []
  | some e => e.words

/-- Keys stand between quotes, but they are not escaped. -/
def Expr.wordsPairs : List (String × Expr) → List String
  | [] => []
  | (k, e) :: ps => k :: e.words ++ Expr.wordsPairs ps

/-- An anonymous function has no name. -/
def Func.words : Func → List String
  | ⟨name, params, body, _⟩ =>
      (if name.isEmpty then [] else [name]) ++ params ++ Stmt.wordsList body

/-- The strings of a statement that are printed without quotes around them. -/
def Stmt.words : Stmt → List String
  | .expr e => e.words
  | .declare x i _ => x :: Expr.wordsOption i
  | .destructure p i => p.names ++ i.words
  | .block b => Stmt.wordsList b
  | .ifElse t c a => t.words ++ c.words ++ Stmt.wordsOption a
  | .whileLoop t b => t.words ++ b.words
  | .forLoop i t u b =>
      Stmt.wordsOption i ++ Expr.wordsOption t ++ Expr.wordsOption u ++ b.words
  | .forEach x i b => x :: i.words ++ b.words
  | .ret v => Expr.wordsOption v
  | .breakLoop => []
  | .continueLoop => []
  | .throw e => e.words
  | .tryCatch b p c f => b.words ++ p.toList ++ Stmt.wordsOption c ++ Stmt.wordsOption f
  | .function f => f.words
  | .holding s => s.words

def Stmt.wordsList : List Stmt → List String
  | [] => []
  | s :: ss => s.words ++ Stmt.wordsList ss

def Stmt.wordsOption : Option Stmt → List String
  | none => []
  | some s => s.words

def Item.words : Item → List String
  | ⟨acquire, none, _⟩ => acquire.words
  | ⟨acquire, some p, _⟩ => acquire.words ++ p.names

def Item.wordsList : List Item → List String
  | [] => []
  | i :: is => i.words ++ Item.wordsList is

def Scoped.words : Scoped → List String
  | ⟨items, body, _⟩ => Item.wordsList items ++ Stmt.wordsList body

end

/-- The words of a program. -/
def Program.words (p : Program) : List String := Stmt.wordsList p.body

/-- All words are identifiers. -/
def Text.Identifiers (words : List String) : Prop := ∀ x ∈ words, isIdentifier x = true

/-! ## Phrases -/

namespace Text

/-- The text stays on its line. -/
def OneLine (text : String) : Prop := '\n' ∉ text.toList

/-- The text begins with a character that is no space. -/
def Begins (text : String) : Prop := text.toList.head?.any (· != ' ') = true

/-- The text ends with a character that is no colon. -/
def Ends (text : String) : Prop := text.toList.getLast?.any (· != ':') = true

instance (text : String) : Decidable (OneLine text) := inferInstanceAs (Decidable (¬ _))

instance (text : String) : Decidable (Begins text) := inferInstanceAs (Decidable (_ = true))

instance (text : String) : Decidable (Ends text) := inferInstanceAs (Decidable (_ = true))

/-- The beginning of a phrase. -/
structure Opening (text : String) : Prop where
  oneLine : OneLine text
  begins : Begins text

/-- A text that can stand for a statement or behind the words of one. -/
structure Phrase (text : String) : Prop extends Opening text where
  ends : Ends text

variable {a b : String}

theorem OneLine.append (ha : OneLine a) (hb : OneLine b) : OneLine (a ++ b) := by
  rw [OneLine, String.toList_append, List.mem_append]
  exact not_or.mpr ⟨ha, hb⟩

theorem Begins.append (h : Begins a) (b : String) : Begins (a ++ b) := by
  rw [Begins, String.toList_append, List.head?_append]
  cases hhead : a.toList.head? with
  | none => simp [Begins, hhead] at h
  | some c => simpa [Begins, hhead] using h

theorem Ends.append (a : String) (h : Ends b) : Ends (a ++ b) := by
  rw [Ends, String.toList_append, List.getLast?_append]
  cases hlast : b.toList.getLast? with
  | none => simp [Ends, hlast] at h
  | some c => simpa [Ends, hlast] using h

namespace Opening

theorem append (ha : Opening a) (hb : OneLine b) : Opening (a ++ b) :=
  ⟨ha.oneLine.append hb, ha.begins.append b⟩

theorem close (ha : Opening a) (hb : OneLine b) (hends : Ends b) : Phrase (a ++ b) :=
  ⟨ha.append hb, hends.append a⟩

theorem phrase (ha : Opening a) (hb : Phrase b) : Phrase (a ++ b) :=
  ha.close hb.oneLine hb.ends

theorem inline (h : Opening a) : Inline a := by
  refine ⟨h.oneLine, fun hspace => ?_⟩
  have hbegins := h.begins
  rw [Begins, hspace] at hbegins
  exact nomatch hbegins

end Opening

/-- The character has no meaning in a layout. -/
abbrev Inert (c : Char) : Prop := c ≠ '\n' ∧ c ≠ ' ' ∧ c ≠ ':'

/-- A text of inert characters. -/
structure Plain (text : String) : Prop where
  nonempty : text.toList ≠ []
  inert : ∀ c ∈ text.toList, Inert c

theorem Plain.phrase (h : Plain a) : Phrase a := by
  have hspace (c : Char) (hc : c ∈ a.toList) : (c != ' ') = true :=
    bne_iff_ne.mpr (h.inert c hc).2.1
  have hcolon (c : Char) (hc : c ∈ a.toList) : (c != ':') = true :=
    bne_iff_ne.mpr (h.inert c hc).2.2
  refine ⟨⟨fun hmem => (h.inert _ hmem).1 rfl, ?_⟩, ?_⟩
  · rw [Begins, List.head?_eq_some_head h.nonempty, Option.any_some]
    exact hspace _ (List.head_mem h.nonempty)
  · rw [Ends, List.getLast?_eq_some_getLast h.nonempty, Option.any_some]
    exact hcolon _ (List.getLast_mem h.nonempty)

/-- The characters of a layout do not occur in names. -/
theorem isNamePart_layout :
    isNamePart '\n' = false ∧ isNamePart ' ' = false ∧ isNamePart ':' = false := by
  decide +kernel

theorem plain_of_isIdentifier
    {x : String} (h : isIdentifier x = true) : Plain x := by
  have hne : x.toList ≠ [] := by
    obtain ⟨first, rest, hchars, -⟩ := exists_of_isSpelled h
    rw [hchars]
    exact List.cons_ne_nil first rest
  have hparts := isNamePart_of_mem h
  obtain ⟨hnewline, hspace, hcolon⟩ := isNamePart_layout
  refine ⟨hne, fun c hc => ⟨?_, ?_, ?_⟩⟩
  · rintro rfl
    exact absurd (hparts _ hc) (by rw [hnewline]; decide)
  · rintro rfl
    exact absurd (hparts _ hc) (by rw [hspace]; decide)
  · rintro rfl
    exact absurd (hparts _ hc) (by rw [hcolon]; decide)

theorem oneLine_commaSeparated
    {texts : List String} (h : ∀ t ∈ texts, OneLine t) : OneLine (commaSeparated texts) := by
  rw [OneLine, commaSeparated, String.toList_intercalate]
  induction texts with
  | nil => exact List.not_mem_nil
  | cons text texts ih =>
      obtain ⟨htext, htexts⟩ := List.forall_mem_cons.mp h
      cases texts with
      | nil => simpa [OneLine] using htext
      | cons next texts =>
          have hrest := ih htexts
          rw [List.map_cons, List.map_cons, List.intercalate_cons_cons, ← List.map_cons,
            List.mem_append, List.mem_append]
          exact not_or.mpr ⟨not_or.mpr ⟨htext, by decide⟩, hrest⟩

theorem newline_not_mem_escapeChar (c : Char) : '\n' ∉ escapeChar c := by
  unfold escapeChar escapeLetter?
  split
  · rename_i letter hletter
    split at hletter <;> cases hletter <;> decide
  · rename_i hnone
    intro hmem
    rw [List.mem_singleton] at hmem
    subst hmem
    exact nomatch hnone

theorem phrase_quoted (s : String) : Phrase (quoted s) := by
  have hescape : '\n' ∉ escape s.toList := by
    rw [escape, List.mem_flatMap]
    rintro ⟨c, -, hc⟩
    exact newline_not_mem_escapeChar c hc
  have hchars : (quoted s).toList = '"' :: escape s.toList ++ ['"'] := String.toList_ofList
  refine ⟨⟨?_, ?_⟩, ?_⟩
  · rw [OneLine, hchars]
    simpa using hescape
  · rw [Begins, hchars]
    rfl
  · rw [Ends, hchars, List.getLast?_concat]
    rfl

end Text

namespace Double

open Text (Inert)

theorem inert_of_mem_natDigits
    {n : Nat} {c : Char} (h : c ∈ natDigits n) : Inert c := by
  have hdigit : c.isDigit = true := Nat.isDigit_of_mem_toDigits (by decide) (by decide) h
  refine ⟨?_, ?_, ?_⟩ <;> (rintro rfl; exact nomatch hdigit)

theorem inert_of_mem_paddedDigits
    {width n : Nat} {c : Char} (h : c ∈ paddedDigits width n) : Inert c := by
  rcases List.mem_append.mp h with h | h
  · rw [List.eq_of_mem_replicate h]
    decide
  · exact inert_of_mem_natDigits h

theorem mem_of_mem_dropTrailingZeros
    {digits : List Char} {c : Char} (h : c ∈ dropTrailingZeros digits) : c ∈ digits := by
  have hdropped := List.mem_reverse.mp h
  exact List.mem_reverse.mp ((List.dropWhile_sublist _).subset hdropped)

/-- A positional text begins with the digits of a whole number. -/
theorem positional_eq
    (v : Nat) :
    ∃ tail, positional v = natDigits (v / Nat.pow 10 places) ++ tail ∧ ∀ c ∈ tail, Inert c := by
  unfold positional
  dsimp only
  split
  · exact ⟨[], (List.append_nil _).symm, nofun⟩
  · refine ⟨_, rfl, List.forall_mem_cons.mpr ⟨by decide, fun c hc => ?_⟩⟩
    exact inert_of_mem_paddedDigits (mem_of_mem_dropTrailingZeros hc)

theorem inert_of_all
    {text : List Char} (h : text.all (fun c => decide (Inert c)) = true) : ∀ c ∈ text, Inert c :=
  fun c hc => of_decide_eq_true (List.all_eq_true.mp h c hc)

theorem plain_signed
    {negative : Bool} {text : List Char} (hne : text ≠ []) (h : ∀ c ∈ text, Inert c) :
    Text.Plain (String.ofList (signed negative text)) := by
  cases negative with
  | false => exact ⟨by rwa [String.toList_ofList], by rwa [String.toList_ofList]⟩
  | true =>
      have hchars : (String.ofList (signed true text)).toList = '-' :: text := String.toList_ofList
      refine ⟨by rw [hchars]; exact List.cons_ne_nil _ _, ?_⟩
      rw [hchars]
      exact List.forall_mem_cons.mpr ⟨by decide, h⟩

theorem plain_text (r : WholeRange) (d : Double) : Text.Plain (d.text r) := by
  unfold text
  split
  · exact plain_signed Nat.toDigits_ne_nil fun c hc => inert_of_mem_natDigits hc
  · unfold shortestText
    split
    · exact ⟨by decide, inert_of_all (by decide)⟩
    · split
      · exact plain_signed (by decide) (inert_of_all (by decide))
      · obtain ⟨tail, hpositional, htail⟩ := positional_eq (shortest d.word)
        rw [hpositional]
        refine plain_signed (List.append_ne_nil_of_left_ne_nil Nat.toDigits_ne_nil _) ?_
        exact List.forall_mem_append.mpr ⟨fun c hc => inert_of_mem_natDigits hc, htail⟩

end Double

/-! ## The phrases of a program -/

namespace Text

variable {words words' : List String} {x : String}

theorem identifiers_append :
    Identifiers (words ++ words') ↔ Identifiers words ∧ Identifiers words' :=
  List.forall_mem_append

theorem identifiers_cons :
    Identifiers (x :: words) ↔ isIdentifier x = true ∧ Identifiers words :=
  List.forall_mem_cons

theorem phrase_of_isIdentifier (h : isIdentifier x = true) : Phrase x :=
  (plain_of_isIdentifier h).phrase

theorem Identifiers.oneLine (h : Identifiers words) : ∀ x ∈ words, OneLine x :=
  fun x hx => (phrase_of_isIdentifier (h x hx)).oneLine

end Text

namespace Python

open Text

theorem oneLine_binaryOp (op : BinaryOp) : OneLine (binaryOp op) := by
  cases op <;> decide

theorem opening_unaryOp (op : UnaryOp) : Opening (unaryOp op) := by
  cases op <;> exact ⟨by decide, by decide⟩

theorem phrase_literal (l : Literal) : Phrase (literal l) := by
  cases l with
  | null => exact ⟨⟨by decide, by decide⟩, by decide⟩
  | bool b => cases b <;> exact ⟨⟨by decide, by decide⟩, by decide⟩
  | number d => exact (d.plain_text .signed64).phrase
  | string s => exact phrase_quoted s

theorem phrase_groupedIf
    {text : String} (b : Bool) (h : Phrase text) : Phrase (groupedIf b text) := by
  cases b with
  | false => exact h
  | true =>
      have hopening : Opening ("(" ++ text) := Opening.append ⟨by decide, by decide⟩ h.oneLine
      exact hopening.close (by decide) (by decide)

/-- A member that is not computed stands behind a point, by its name or as an expression. -/
theorem expr_member
    (o p : Expr) :
    (∃ s, p = .literal (.string s) ∧ expr (.member o p false) = expr o ++ "." ++ s) ∨
      expr (.member o p false) = expr o ++ "." ++ expr p := by
  cases p with
  | literal l =>
      cases l with
      | string s => exact .inl ⟨s, rfl, rfl⟩
      | _ => exact .inr rfl
  | _ => exact .inr rfl

/-- A tuple stands in parentheses, with a comma behind a single slot. -/
theorem display_tuple
    (slots : List Pattern) :
    (∃ text ∈ Pattern.displayList slots, (Pattern.tuple slots).display = "(" ++ text ++ ",)") ∨
      (Pattern.tuple slots).display =
        "(" ++ commaSeparated (Pattern.displayList slots) ++ ")" := by
  cases slots with
  | nil => exact .inr rfl
  | cons p ps =>
      cases ps with
      | nil => exact .inl ⟨p.display, List.mem_singleton.mpr rfl, rfl⟩
      | cons q ps => exact .inr rfl

mutual

/-- An expression is a phrase. -/
theorem phrase_expr : (e : Expr) → Identifiers e.words → Phrase (expr e)
  | .literal l, _ => by
      rw [expr]
      exact phrase_literal l
  | .ident x, h => by
      rw [expr]
      exact phrase_of_isIdentifier (h x (by simp [Expr.words]))
  | .binary l op r, h => by
      rw [Expr.words, identifiers_append] at h
      have hl := phrase_expr l h.1
      have hr := phrase_expr r h.2
      have hopen : Opening "(" := ⟨by decide, by decide⟩
      rw [expr]
      exact (((((hopen.append hl.oneLine).append (by decide)).append (oneLine_binaryOp op)).append
        (by decide)).append hr.oneLine).close (by decide) (by decide)
  | .unary op e, h => by
      rw [Expr.words] at h
      rw [expr]
      exact (opening_unaryOp op).phrase (phrase_expr e h)
  | .call f args, h => by
      rw [Expr.words, identifiers_append] at h
      have hargs := oneLine_commaSeparated (oneLine_exprs args h.2)
      rw [expr]
      exact (((phrase_expr f h.1).append (by decide)).append hargs).close (by decide) (by decide)
  | .methodCall r m args, h => by
      rw [Expr.words, identifiers_append, identifiers_cons] at h
      obtain ⟨hr, hm, hargs⟩ := h
      have hreceiver := phrase_groupedIf (isAwait r) (phrase_expr r hr)
      have hmethod := (phrase_of_isIdentifier hm).oneLine
      have hargs := oneLine_commaSeparated (oneLine_exprs args hargs)
      rw [expr]
      exact ((((hreceiver.append (by decide)).append hmethod).append (by decide)).append
        hargs).close (by decide) (by decide)
  | .member o p true, h => by
      rw [Expr.words, identifiers_append, identifiers_append] at h
      have hp := phrase_expr p h.2.1
      rw [expr]
      exact (((phrase_expr o h.1).append (by decide)).append hp.oneLine).close (by decide)
        (by decide)
  | .member o p false, h => by
      rw [Expr.words, identifiers_append, identifiers_append] at h
      obtain ⟨ho, hp, hword⟩ := h
      have hobject : Opening (expr o ++ ".") := (phrase_expr o ho).append (by decide)
      rcases expr_member o p with ⟨s, rfl, hmember⟩ | hmember
      · rw [hmember]
        exact hobject.phrase (phrase_of_isIdentifier (hword s (by simp [Expr.memberWords])))
      · rw [hmember]
        exact hobject.phrase (phrase_expr p hp)
  | .array es, h => by
      rw [Expr.words] at h
      have hes := oneLine_commaSeparated (oneLine_exprs es h)
      have hopen : Opening "[" := ⟨by decide, by decide⟩
      rw [expr]
      exact (hopen.append hes).close (by decide) (by decide)
  | .object ps, h => by
      rw [Expr.words] at h
      have hps := oneLine_commaSeparated (oneLine_pairs ps h)
      have hopen : Opening "\x7b" := ⟨by decide, by decide⟩
      rw [expr]
      exact (hopen.append hps).close (by decide) (by decide)
  | .function ⟨_, params, body, _⟩, h => by
      have hcomplex : Phrase "None  # complex function" := ⟨⟨by decide, by decide⟩, by decide⟩
      rw [Expr.words, Func.words, identifiers_append, identifiers_append] at h
      obtain ⟨⟨-, hparams⟩, hbody⟩ := h
      -- Only a function that returns an expression is written out.
      cases body with
      | nil => exact hcomplex
      | cons s rest =>
          cases s with
          | ret v =>
              cases v with
              | none => exact hcomplex
              | some e =>
                  cases rest with
                  | cons s' rest => exact hcomplex
                  | nil =>
                      have hlambda : Opening "lambda " := ⟨by decide, by decide⟩
                      have hparams := oneLine_commaSeparated hparams.oneLine
                      have he : Identifiers e.words := by
                        simpa [Stmt.wordsList, Stmt.words, Expr.wordsOption] using hbody
                      exact ((hlambda.append hparams).append (by decide)).phrase (phrase_expr e he)
          | _ => exact hcomplex
  | .conditional t c a, h => by
      rw [Expr.words, identifiers_append, identifiers_append] at h
      have ht := phrase_expr t h.1.1
      have hc := phrase_expr c h.1.2
      have ha := phrase_expr a h.2
      have hopen : Opening "(" := ⟨by decide, by decide⟩
      rw [expr]
      exact (((((hopen.append hc.oneLine).append (by decide)).append ht.oneLine).append
        (by decide)).append ha.oneLine).close (by decide) (by decide)
  | .assign t v, h => by
      rw [Expr.words, identifiers_append] at h
      rw [expr]
      exact ((phrase_expr t h.1).append (by decide)).phrase (phrase_expr v h.2)
  | .await e, h => by
      rw [Expr.words] at h
      have hopen : Opening "await " := ⟨by decide, by decide⟩
      rw [expr]
      exact hopen.phrase (phrase_expr e h)

theorem oneLine_exprs :
    (es : List Expr) → Identifiers (Expr.wordsList es) → ∀ t ∈ exprs es, OneLine t
  | [], _ => by
      rw [exprs]
      exact nofun
  | e :: es, h => by
      rw [Expr.wordsList, identifiers_append] at h
      rw [exprs]
      exact List.forall_mem_cons.mpr ⟨(phrase_expr e h.1).oneLine, oneLine_exprs es h.2⟩

theorem oneLine_pairs :
    (ps : List (String × Expr)) → Identifiers (Expr.wordsPairs ps) → ∀ t ∈ pairs ps, OneLine t
  | [], _ => by
      rw [pairs]
      exact nofun
  | (k, e) :: ps, h => by
      rw [Expr.wordsPairs, identifiers_append, identifiers_cons] at h
      obtain ⟨⟨hk, he⟩, hps⟩ := h
      have hkey := (phrase_of_isIdentifier hk).oneLine
      have hquote : OneLine "\"" := by decide
      rw [pairs]
      refine List.forall_mem_cons.mpr ⟨?_, oneLine_pairs ps hps⟩
      exact ((hquote.append hkey).append (by decide)).append (phrase_expr e he).oneLine

end

mutual

/-- A pattern is a phrase. -/
theorem phrase_display : (p : Pattern) → Identifiers p.names → Phrase p.display
  | .name x, h => by
      rw [Pattern.display]
      exact phrase_of_isIdentifier (h x (by simp [Pattern.names]))
  | .tuple slots, h => by
      rw [Pattern.names] at h
      have hopen : Opening "(" := ⟨by decide, by decide⟩
      have hslots := oneLine_displayList slots h
      rcases display_tuple slots with ⟨text, htext, hdisplay⟩ | hdisplay
      · rw [hdisplay]
        exact (hopen.append (hslots text htext)).close (by decide) (by decide)
      · rw [hdisplay]
        exact (hopen.append (oneLine_commaSeparated hslots)).close (by decide) (by decide)

theorem oneLine_displayList :
    (ps : List Pattern) → Identifiers (Pattern.namesList ps) →
      ∀ t ∈ Pattern.displayList ps, OneLine t
  | [], _ => by
      rw [Pattern.displayList]
      exact nofun
  | p :: ps, h => by
      rw [Pattern.namesList, identifiers_append] at h
      rw [Pattern.displayList]
      exact List.forall_mem_cons.mpr ⟨(phrase_display p h.1).oneLine, oneLine_displayList ps h.2⟩

end

theorem oneLine_item
    (i : Item) (h : Identifiers i.words) : OneLine (item i) := by
  obtain ⟨acquire, binding, arity⟩ := i
  cases binding with
  | none => exact (phrase_expr acquire h).oneLine
  | some p =>
      rw [Item.words, identifiers_append] at h
      exact ((phrase_expr acquire h.1).oneLine.append (by decide)).append
        (phrase_display p h.2).oneLine

theorem oneLine_items
    (items : List Item) (h : Identifiers (Item.wordsList items)) :
    ∀ t ∈ items.map item, OneLine t := by
  induction items with
  | nil => exact nofun
  | cons i items ih =>
      rw [Item.wordsList, identifiers_append] at h
      exact List.forall_mem_cons.mpr ⟨oneLine_item i h.1, ih h.2⟩

end Python

end Bracket
