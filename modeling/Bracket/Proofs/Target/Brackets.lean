import Bracket.Proofs.Double.Numerals
import Bracket.Proofs.Target.Phrases
import Bracket.Proofs.Text.Quoting

/-!
# Brackets, strings and comments in Python code

A text is closed if a scanner that knows string literals, comments and brackets is outside of
all of them at its end, and each bracket was closed by the one that belongs to it.

Most of the text of an expression is closed whatever the expression says, since string literals
are escaped.  Three things are put into it as they are: names, the keys of dictionaries, which
stand between quotes but are not escaped, and a remark in place of a function that is more than
one returned expression.  The main statement is that with identifiers for names and keys that
keep to their quotes, the text is closed exactly if there is no such remark in it.  Behind a
remark the keys have to stay on their line as well, since the comment ends with the line.
-/

namespace Bracket

/-! ## What is put in a text as it is -/

/-- A part of an expression that is neither escaped nor chosen by the printer. -/
inductive Fragment where
  /-- The name of a variable, a parameter, a method or a member. -/
  | name (x : String)
  /-- The key of a dictionary. -/
  | key (k : String)
  /-- A remark in place of a function. -/
  | remark
  deriving DecidableEq, Repr

mutual

/-- The fragments of the text of an expression. -/
def Expr.fragments : Expr → List Fragment
  | .literal _ => []
  | .ident x => [.name x]
  | .binary l _ r => l.fragments ++ r.fragments
  | .unary _ e => e.fragments
  | .call f args => f.fragments ++ Expr.fragmentsList args
  | .methodCall r m args => r.fragments ++ .name m :: Expr.fragmentsList args
  | .member o p true => o.fragments ++ p.fragments
  | .member o (.literal (.string s)) false => o.fragments ++ [.name s]
  | .member o p false => o.fragments ++ p.fragments
  | .array es => Expr.fragmentsList es
  | .object ps => Expr.fragmentsPairs ps
  | .function ⟨_, params, [.ret (some e)], _⟩ => params.map .name ++ e.fragments
  | .function _ => [.remark]
  | .conditional t c a => c.fragments ++ (t.fragments ++ a.fragments)
  | .assign t v => t.fragments ++ v.fragments
  | .await e => e.fragments

def Expr.fragmentsList : List Expr → List Fragment
  | [] => []
  | e :: es => e.fragments ++ Expr.fragmentsList es

def Expr.fragmentsPairs : List (String × Expr) → List Fragment
  | [] => []
  | (k, e) :: ps => .key k :: (e.fragments ++ Expr.fragmentsPairs ps)

end

/-! ## The scanner -/

namespace Python

open Text (OneLine commaSeparated isIdentifier)

/-- Where a scanner is in a text. -/
inductive Mode where
  | code
  | quoted
  /-- Behind a backslash in a string literal. -/
  | escaped
  | comment
  deriving DecidableEq, Repr

structure Scanner where
  mode : Mode
  /-- The closing brackets that are still to come, the next one first. -/
  pending : List Char
  deriving DecidableEq, Repr

/-- The bracket that closes the given one. -/
def closer? : Char → Option Char
  | '(' => some ')'
  | '[' => some ']'
  | '\x7b' => some '\x7d'
  | _ => none

def isCloser (c : Char) : Bool := c == ')' || c == ']' || c == '\x7d'

/-- The brackets that are open behind a character of code; only the last one can be closed. -/
def bracketsBehind (c : Char) (pending : List Char) : Option (List Char) :=
  match closer? c with
  | some d => some (d :: pending)
  | none =>
      if isCloser c then
        if pending.head? = some c then some pending.tail else none
      else some pending

/-- Where a scanner is behind a character.  A string literal has to end on its line. -/
def Mode.next : Mode → Char → Option Mode
  | .code, c => some (if c = '"' then .quoted else if c = '#' then .comment else .code)
  | .quoted, c =>
      if c = '\n' then none
      else some (if c = '\\' then .escaped else if c = '"' then .code else .quoted)
  | .escaped, _ => some .quoted
  | .comment, c => some (if c = '\n' then .code else .comment)

namespace Scanner

/-- Brackets count in code only. -/
def pendingBehind (s : Scanner) (c : Char) : Option (List Char) :=
  if s.mode = .code then bracketsBehind c s.pending else some s.pending

/-- The scanner reads a character. -/
def next (s : Scanner) (c : Char) : Option Scanner := do
  let mode ← s.mode.next c
  let pending ← s.pendingBehind c
  some ⟨mode, pending⟩

def step (s : Option Scanner) (c : Char) : Option Scanner := s.bind (·.next c)

def scan (s : Option Scanner) (text : List Char) : Option Scanner := text.foldl step s

theorem scan_cons
    (s : Option Scanner) (c : Char) (t : List Char) : scan s (c :: t) = scan (step s c) t := rfl

theorem scan_append
    (s : Option Scanner) (t u : List Char) : scan s (t ++ u) = scan (scan s t) u :=
  List.foldl_append

theorem scan_none (t : List Char) : scan none t = none := by
  induction t with
  | nil => rfl
  | cons c t ih => exact ih

/-- A comment goes on to the end of its line. -/
theorem scan_comment
    {t : List Char} (h : '\n' ∉ t) (pending : List Char) :
    scan (some ⟨.comment, pending⟩) t = some ⟨.comment, pending⟩ := by
  induction t with
  | nil => rfl
  | cons c t ih =>
      obtain ⟨hc, ht⟩ := not_or.mp (mt List.mem_cons.mpr h)
      have hstep : step (some ⟨.comment, pending⟩) c = some ⟨.comment, pending⟩ := by
        simp [step, next, Mode.next, pendingBehind, Ne.symm hc]
      rw [scan_cons, hstep]
      exact ih ht

/-! ### Brackets around a text -/

theorem bracketsBehind_append
    {c : Char} {pending pending' : List Char} (rest : List Char)
    (h : bracketsBehind c pending = some pending') :
    bracketsBehind c (pending ++ rest) = some (pending' ++ rest) := by
  unfold bracketsBehind at h ⊢
  cases hopen : closer? c with
  | some d =>
      rw [hopen] at h
      cases h
      rfl
  | none =>
      simp only [hopen] at h ⊢
      split at h
      · split at h
        · rename_i hcloser hhead
          cases h
          obtain ⟨ds, rfl⟩ := List.head?_eq_some_iff.mp hhead
          simp [hcloser]
        · cases h
      · rename_i hcloser
        cases h
        simp [hcloser]

theorem next_append
    {m m' : Mode} {c : Char} {pending pending' : List Char} (rest : List Char)
    (h : next ⟨m, pending⟩ c = some ⟨m', pending'⟩) :
    next ⟨m, pending ++ rest⟩ c = some ⟨m', pending' ++ rest⟩ := by
  simp only [next, Option.bind_eq_bind, Option.bind_eq_some_iff, Option.some.injEq,
    mk.injEq] at h ⊢
  obtain ⟨mode, hmode, behind, hbehind, rfl, rfl⟩ := h
  refine ⟨mode, hmode, behind ++ rest, ?_, rfl, rfl⟩
  simp only [pendingBehind] at hbehind ⊢
  split at hbehind
  · rename_i hcode
    rw [if_pos hcode]
    exact bracketsBehind_append rest hbehind
  · rename_i hcode
    rw [if_neg hcode, Option.some.inj hbehind]

/-- What a scanner makes of a text does not depend on the brackets that are open around it. -/
theorem scan_append_pending
    {m m' : Mode} {t : List Char} {pending pending' : List Char} (rest : List Char)
    (h : scan (some ⟨m, pending⟩) t = some ⟨m', pending'⟩) :
    scan (some ⟨m, pending ++ rest⟩) t = some ⟨m', pending' ++ rest⟩ := by
  induction t generalizing m pending with
  | nil =>
      cases h
      rfl
  | cons c t ih =>
      rw [scan_cons] at h ⊢
      cases hnext : next ⟨m, pending⟩ c with
      | none =>
          rw [show step (some ⟨m, pending⟩) c = none from hnext, scan_none] at h
          cases h
      | some s =>
          rw [show step (some ⟨m, pending⟩) c = some s from hnext] at h
          rw [show step (some ⟨m, pending ++ rest⟩) c = _ from next_append rest hnext]
          exact ih h

end Scanner

open Scanner (scan)

/-- The text is outside of string literals and comments at its end, and its brackets match. -/
def Closed (text : String) : Prop := scan (some ⟨.code, []⟩) text.toList = some ⟨.code, []⟩

/-- Between the quotes of a key, the text ends inside of the quotes and of the dictionary. -/
def KeepsQuotes (k : String) : Prop :=
  scan (some ⟨.quoted, ['\x7d']⟩) k.toList = some ⟨.quoted, ['\x7d']⟩

instance (text : String) : Decidable (Closed text) := inferInstanceAs (Decidable (_ = _))

instance (k : String) : Decidable (KeepsQuotes k) := inferInstanceAs (Decidable (_ = _))

/-! ## Texts and their brackets -/

/-- Read from code on, the text leads from some open brackets to others, or else, if something
in it is `hidden`, into a comment.  The comment goes on to the end if the text is `lined`, that
is, if it stays on its line. -/
structure Passes (lined hidden : Bool) (before after : List Char) (text : String) : Prop where
  oneLine : lined = true → OneLine text
  shown : hidden = false → scan (some ⟨.code, before⟩) text.toList = some ⟨.code, after⟩
  commented : lined = true → hidden = true →
    ∃ pending, scan (some ⟨.code, before⟩) text.toList = some ⟨.comment, pending⟩

/-- The text closes all brackets that it opens. -/
def Reads (lined hidden : Bool) (text : String) : Prop :=
  ∀ pending, Passes lined hidden pending pending text

section Texts

variable {lined a b : Bool} {x y z pending : List Char} {s t : String}

theorem Passes.append
    (h : Passes lined a x y s) (h' : Passes lined b y z t) :
    Passes lined (a || b) x z (s ++ t) := by
  refine ⟨fun hlined => (h.oneLine hlined).append (h'.oneLine hlined), fun hshown => ?_,
    fun hlined hhidden => ?_⟩
  · obtain ⟨ha, hb⟩ := Bool.or_eq_false_iff.mp hshown
    rw [String.toList_append, Scanner.scan_append, h.shown ha, h'.shown hb]
  · rw [String.toList_append, Scanner.scan_append]
    cases ha : a with
    | false =>
        rw [ha, Bool.false_or] at hhidden
        rw [h.shown ha]
        exact h'.commented hlined hhidden
    | true =>
        obtain ⟨pending, hscan⟩ := h.commented hlined ha
        rw [hscan]
        exact ⟨pending, Scanner.scan_comment (h'.oneLine hlined) pending⟩

theorem Reads.append (h : Reads lined a s) (h' : Reads lined b t) : Reads lined (a || b) (s ++ t) :=
  fun pending => (h pending).append (h' pending)

/-- The characters that a scanner in code does not pass over. -/
def specials : List Char := ['"', '#', '(', '[', '\x7b', ')', ']', '\x7d', '\n']

theorem step_of_not_mem_specials
    {c : Char} (h : c ∉ specials) (pending : List Char) :
    Scanner.step (some ⟨.code, pending⟩) c = some ⟨.code, pending⟩ := by
  simp only [specials, List.mem_cons, List.not_mem_nil, or_false, not_or] at h
  obtain ⟨hquote, hhash, hround, hsquare, hcurly, hround', hsquare', hcurly', -⟩ := h
  have hopen : closer? c = none := by
    unfold closer?
    split
    · exact absurd rfl hround
    · exact absurd rfl hsquare
    · exact absurd rfl hcurly
    · rfl
  have hclose : isCloser c = false := by simp [isCloser, hround', hsquare', hcurly']
  simp [Scanner.step, Scanner.next, Mode.next, Scanner.pendingBehind, bracketsBehind, hquote,
    hhash, hopen, hclose]

theorem scan_of_not_mem_specials
    {t : List Char} (h : ∀ c ∈ t, c ∉ specials) (pending : List Char) :
    scan (some ⟨.code, pending⟩) t = some ⟨.code, pending⟩ := by
  induction t with
  | nil => rfl
  | cons c t ih =>
      obtain ⟨hc, ht⟩ := List.forall_mem_cons.mp h
      rw [Scanner.scan_cons, step_of_not_mem_specials hc]
      exact ih ht

/-- Nothing is hidden in the text. -/
theorem Passes.of_scan
    (hline : lined = true → OneLine s)
    (hscan : scan (some ⟨.code, x⟩) s.toList = some ⟨.code, y⟩) :
    Passes lined false x y s :=
  ⟨hline, fun _ => hscan, fun _ h => absurd h (by decide)⟩

theorem Passes.of_line
    (hline : OneLine s) (hscan : scan (some ⟨.code, x⟩) s.toList = some ⟨.code, y⟩) :
    Passes lined false x y s :=
  .of_scan (fun _ => hline) hscan

theorem Reads.grouped (h : Reads lined a s) : Reads lined a ("(" ++ s ++ ")") := by
  intro pending
  have hopen : Passes lined false pending (')' :: pending) "(" := .of_line (by decide) rfl
  have hclose : Passes lined false (')' :: pending) pending ")" := .of_line (by decide) rfl
  simpa using (hopen.append (h _)).append hclose

theorem Reads.indexed (h : Reads lined a s) : Reads lined a ("[" ++ s ++ "]") := by
  intro pending
  have hopen : Passes lined false pending (']' :: pending) "[" := .of_line (by decide) rfl
  have hclose : Passes lined false (']' :: pending) pending "]" := .of_line (by decide) rfl
  simpa using (hopen.append (h _)).append hclose

theorem Reads.inDictionary
    (h : ∀ pending, Passes lined a ('\x7d' :: pending) ('\x7d' :: pending) s) :
    Reads lined a ("\x7b" ++ s ++ "\x7d") := by
  intro pending
  have hopen : Passes lined false pending ('\x7d' :: pending) "\x7b" := .of_line (by decide) rfl
  have hclose : Passes lined false ('\x7d' :: pending) pending "\x7d" := .of_line (by decide) rfl
  simpa using (hopen.append (h _)).append hclose

theorem reads_of_not_mem_specials (h : ∀ c ∈ s.toList, c ∉ specials) : Reads lined false s :=
  fun pending => .of_line (fun hfeed => absurd (by decide) (h _ hfeed))
    (scan_of_not_mem_specials h pending)

/-- A text without special characters. -/
theorem reads_text
    (h : s.toList.all (fun c => decide (c ∉ specials)) = true) : Reads lined false s :=
  reads_of_not_mem_specials fun c hc => of_decide_eq_true (List.all_eq_true.mp h c hc)

/-- A class of characters with no special one in it. -/
theorem not_mem_specials
    {p : Char → Bool} (hp : specials.all (fun c => !p c) = true) {c : Char} (h : p c = true) :
    c ∉ specials := by
  intro hmem
  have hc := List.all_eq_true.mp hp c hmem
  simp [h] at hc

/-- The rest of a list may be empty. -/
theorem passes_commaSeparated_cons
    {texts : List String} (h : Passes lined a x x s)
    (hrest : Passes lined b x x (commaSeparated texts)) :
    Passes lined (a || b) x x (commaSeparated (s :: texts)) := by
  cases texts with
  | nil =>
      have htext : commaSeparated [s] = s := by
        rw [← String.toList_inj]
        simp [commaSeparated]
      rw [htext]
      cases b with
      | false =>
          rw [Bool.or_false]
          exact h
      | true =>
          -- Nothing is hidden in an empty text.
          refine ⟨h.oneLine, fun hshown => absurd hshown (by simp), fun hlined _ => ?_⟩
          obtain ⟨pending, hscan⟩ := hrest.commented hlined rfl
          cases hscan
  | cons t texts =>
      have hcomma : Reads lined false ", " := reads_text (by decide)
      have htext : commaSeparated (s :: t :: texts) =
          s ++ (", " ++ commaSeparated (t :: texts)) := by
        rw [← String.toList_inj]
        simp [commaSeparated, String.toList_intercalate]
      rw [htext]
      simpa using h.append ((hcomma x).append hrest)

/-! ## Names, literals and keys -/

theorem reads_name {x : String} (h : isIdentifier x = true) : Reads lined false x := by
  have hparts : specials.all (fun c => !Text.isNamePart c) = true := by decide +kernel
  exact reads_of_not_mem_specials fun c hc =>
    not_mem_specials hparts (Text.isNamePart_of_mem h c hc)

theorem reads_literal (l : Literal) : Reads lined false (literal l) := by
  cases l with
  | null => exact reads_text (by decide)
  | bool value => cases value <;> exact reads_text (by decide)
  | number d =>
      obtain ⟨body, htext, -, hbody⟩ := d.toList_text .signed64 (by decide)
      have hneutral (c : Char) (hc : c ∈ body) : c ∉ specials :=
        not_mem_specials (by decide) (hbody c hc)
      refine reads_of_not_mem_specials ?_
      rw [literal, htext]
      cases d.isNegative with
      | false => exact hneutral
      | true => exact List.forall_mem_cons.mpr ⟨by decide, hneutral⟩
  | string s =>
      intro pending
      have hescape : scan (some ⟨.quoted, pending⟩) (Text.escape s.toList) =
          some ⟨.quoted, pending⟩ := by
        refine Text.foldl_escape (fun c hslash hquote hfeed => ?_) rfl (fun _ => rfl) s.toList
        simp [Scanner.step, Scanner.next, Mode.next, Scanner.pendingBehind, hslash, hquote, hfeed]
      have hchars : (literal (.string s)).toList = '"' :: (Text.escape s.toList ++ ['"']) :=
        String.toList_ofList
      refine .of_line (Text.phrase_quoted s).oneLine ?_
      rw [hchars, Scanner.scan_cons,
        show Scanner.step (some ⟨.code, pending⟩) '"' = some ⟨.quoted, pending⟩ from rfl,
        Scanner.scan_append, hescape]
      rfl

/-- The key of a dictionary with its quotes. -/
theorem passes_key
    {k : String} (hkeeps : KeepsQuotes k) (hline : lined = true → OneLine k) :
    Passes lined false ('\x7d' :: pending) ('\x7d' :: pending) ("\"" ++ k ++ "\": ") := by
  have hline (hlined : lined = true) : OneLine ("\"" ++ k ++ "\": ") :=
    (OneLine.append (by decide) (hline hlined)).append (by decide)
  have hkey := Scanner.scan_append_pending pending hkeeps
  refine .of_scan hline ?_
  rw [String.toList_append, String.toList_append, Scanner.scan_append, Scanner.scan_append,
    show scan (some ⟨.code, '\x7d' :: pending⟩) "\"".toList = some ⟨.quoted, '\x7d' :: pending⟩
      from rfl]
  rw [List.singleton_append] at hkey
  rw [hkey]
  rfl

end Texts

/-! ## The text of an expression -/

variable {lined : Bool}

/-- Names are identifiers, and keys keep to their quotes and, in `lined` texts, to their
line. -/
def Kept (lined : Bool) : Fragment → Prop
  | .name x => isIdentifier x = true
  | .key k => KeepsQuotes k ∧ (lined = true → OneLine k)
  | .remark => True

instance (lined : Bool) : DecidablePred (Kept lined)
  | .name x => inferInstanceAs (Decidable (isIdentifier x = true))
  | .key k => inferInstanceAs (Decidable (KeepsQuotes k ∧ (lined = true → OneLine k)))
  | .remark => inferInstanceAs (Decidable True)

/-- There is a remark among the fragments. -/
def remarks (fs : List Fragment) : Bool := fs.contains .remark

@[simp] theorem remarks_nil : remarks [] = false := rfl

@[simp] theorem remarks_name
    (x : String) (fs : List Fragment) : remarks (.name x :: fs) = remarks fs := by
  simp [remarks]

@[simp] theorem remarks_key
    (k : String) (fs : List Fragment) : remarks (.key k :: fs) = remarks fs := by
  simp [remarks]

@[simp] theorem remarks_append
    (fs gs : List Fragment) : remarks (fs ++ gs) = (remarks fs || remarks gs) := by
  simp [remarks]

/-- A member that is not computed stands behind a point, by its name or as an expression. -/
theorem fragments_member
    (o p : Expr) :
    (∃ s, p = .literal (.string s)) ∨
      expr (.member o p false) = expr o ++ "." ++ expr p ∧
        (Expr.member o p false).fragments = o.fragments ++ p.fragments := by
  cases p with
  | literal l =>
      cases l with
      | string s => exact .inl ⟨s, rfl⟩
      | _ => exact .inr ⟨rfl, rfl⟩
  | _ => exact .inr ⟨rfl, rfl⟩

theorem reads_remark : Reads lined true "None  # complex function" := fun pending =>
  ⟨fun _ => by decide, fun h => absurd h (by decide), fun _ _ => ⟨pending, rfl⟩⟩

theorem reads_params
    {params : List String} (h : ∀ x ∈ params, isIdentifier x = true) :
    Reads lined false (commaSeparated params) := by
  induction params with
  | nil => exact reads_text (by decide)
  | cons x xs ih =>
      obtain ⟨hx, hxs⟩ := List.forall_mem_cons.mp h
      exact fun pending => passes_commaSeparated_cons (reads_name hx pending) (ih hxs pending)

mutual

/-- What is written for an expression reads as its fragments say. -/
theorem reads_expr :
    (e : Expr) → (∀ f ∈ e.fragments, Kept lined f) → Reads lined (remarks e.fragments) (expr e)
  | .literal l, _ => by
      rw [expr, Expr.fragments]
      exact reads_literal l
  | .ident x, h => by
      rw [Expr.fragments] at h
      rw [expr, Expr.fragments, remarks_name]
      exact reads_name (h _ List.mem_cons_self)
  | .binary l op r, h => by
      rw [Expr.fragments, List.forall_mem_append] at h
      have hop : Reads lined false (binaryOp op) := by cases op <;> exact reads_text (by decide)
      have hspace : Reads lined false " " := reads_text (by decide)
      rw [expr, Expr.fragments]
      simpa [String.append_assoc] using ((reads_expr l h.1).append
        (hspace.append (hop.append (hspace.append (reads_expr r h.2))))).grouped
  | .unary op e, h => by
      rw [Expr.fragments] at h
      have hop : Reads lined false (unaryOp op) := by cases op <;> exact reads_text (by decide)
      rw [expr, Expr.fragments]
      simpa using hop.append (reads_expr e h)
  | .call f args, h => by
      rw [Expr.fragments, List.forall_mem_append] at h
      rw [expr, Expr.fragments]
      simpa [String.append_assoc] using (reads_expr f h.1).append (reads_exprs args h.2).grouped
  | .methodCall r m args, h => by
      rw [Expr.fragments, List.forall_mem_append, List.forall_mem_cons] at h
      have hr : Reads lined (remarks r.fragments) (groupedIf (isAwait r) (expr r)) := by
        cases isAwait r with
        | false => exact reads_expr r h.1
        | true => exact (reads_expr r h.1).grouped
      have hpoint : Reads lined false "." := reads_text (by decide)
      rw [expr, Expr.fragments]
      simpa [String.append_assoc] using
        hr.append (hpoint.append ((reads_name h.2.1).append (reads_exprs args h.2.2).grouped))
  | .member o p true, h => by
      rw [Expr.fragments, List.forall_mem_append] at h
      rw [expr, Expr.fragments]
      simpa [String.append_assoc] using (reads_expr o h.1).append (reads_expr p h.2).indexed
  | .member o p false, h => by
      have hpoint : Reads lined false "." := reads_text (by decide)
      rcases fragments_member o p with ⟨s, rfl⟩ | ⟨htext, hfragments⟩
      · rw [Expr.fragments, List.forall_mem_append] at h
        have hs : Reads lined false s := reads_name (h.2 _ List.mem_cons_self)
        rw [expr, Expr.fragments]
        simpa [String.append_assoc] using (reads_expr o h.1).append (hpoint.append hs)
      · rw [hfragments, List.forall_mem_append] at h
        rw [htext, hfragments]
        simpa [String.append_assoc] using
          (reads_expr o h.1).append (hpoint.append (reads_expr p h.2))
  | .array es, h => by
      rw [Expr.fragments] at h
      rw [expr, Expr.fragments]
      exact (reads_exprs es h).indexed
  | .object ps, h => by
      rw [Expr.fragments] at h
      rw [expr, Expr.fragments]
      exact Reads.inDictionary fun pending => passes_pairs ps h pending
  | .function ⟨_, params, body, _⟩, h => by
      -- Only a function that returns an expression is written out.
      cases body with
      | nil => exact reads_remark
      | cons s rest =>
          cases s with
          | ret v =>
              cases v with
              | none => exact reads_remark
              | some e =>
                  cases rest with
                  | cons s' rest => exact reads_remark
                  | nil =>
                      rw [Expr.fragments, List.forall_mem_append, List.forall_mem_map] at h
                      have hlambda : Reads lined false "lambda " := reads_text (by decide)
                      have hcolon : Reads lined false ": " := reads_text (by decide)
                      have hnames : remarks (params.map .name) = false := by
                        simp [remarks]
                      rw [expr, Expr.fragments, remarks_append, hnames]
                      simpa [String.append_assoc] using hlambda.append
                        ((reads_params h.1).append (hcolon.append (reads_expr e h.2)))
          | _ => exact reads_remark
  | .conditional t c a, h => by
      rw [Expr.fragments, List.forall_mem_append, List.forall_mem_append] at h
      have hif : Reads lined false " if " := reads_text (by decide)
      have helse : Reads lined false " else " := reads_text (by decide)
      rw [expr, Expr.fragments]
      simpa [String.append_assoc] using ((reads_expr c h.1).append (hif.append
        ((reads_expr t h.2.1).append (helse.append (reads_expr a h.2.2))))).grouped
  | .assign t v, h => by
      rw [Expr.fragments, List.forall_mem_append] at h
      have hsign : Reads lined false " = " := reads_text (by decide)
      rw [expr, Expr.fragments]
      simpa [String.append_assoc] using (reads_expr t h.1).append (hsign.append (reads_expr v h.2))
  | .await e, h => by
      rw [Expr.fragments] at h
      have hawait : Reads lined false "await " := reads_text (by decide)
      rw [expr, Expr.fragments]
      simpa using hawait.append (reads_expr e h)

theorem reads_exprs :
    (es : List Expr) → (∀ f ∈ Expr.fragmentsList es, Kept lined f) →
      Reads lined (remarks (Expr.fragmentsList es)) (commaSeparated (exprs es))
  | [], _ => by
      rw [exprs, Expr.fragmentsList]
      exact reads_text (by decide)
  | e :: es, h => by
      rw [Expr.fragmentsList, List.forall_mem_append] at h
      rw [exprs, Expr.fragmentsList, remarks_append]
      exact fun pending =>
        passes_commaSeparated_cons (reads_expr e h.1 pending) (reads_exprs es h.2 pending)

theorem passes_pairs :
    (ps : List (String × Expr)) → (∀ f ∈ Expr.fragmentsPairs ps, Kept lined f) →
      (pending : List Char) → Passes lined (remarks (Expr.fragmentsPairs ps)) ('\x7d' :: pending)
        ('\x7d' :: pending) (commaSeparated (pairs ps))
  | [], _, _ => by
      rw [pairs, Expr.fragmentsPairs]
      exact reads_text (by decide) _
  | (k, e) :: ps, h, pending => by
      rw [Expr.fragmentsPairs, List.forall_mem_cons, List.forall_mem_append] at h
      obtain ⟨⟨hkeeps, hline⟩, he, hps⟩ := h
      rw [pairs, Expr.fragmentsPairs, remarks_key, remarks_append]
      have hentry := (passes_key hkeeps hline).append (reads_expr e he ('\x7d' :: pending))
      rw [Bool.false_or] at hentry
      exact passes_commaSeparated_cons hentry (passes_pairs ps hps pending)

end

/-- Only from inside of the quotes does the text behind a key lead out of them. -/
theorem scan_behind_key
    (s : Option Scanner) :
    scan s "\": None\x7d".toList = some ⟨.code, []⟩ ↔ s = some ⟨.quoted, ['\x7d']⟩ := by
  cases s with
  | none =>
      rw [Scanner.scan_none]
      simp
  | some s =>
      obtain ⟨mode, pending⟩ := s
      cases mode with
      | code =>
          have hrest : scan (some ⟨.code, pending⟩) "\": None\x7d".toList =
              some ⟨.quoted, pending⟩ := rfl
          rw [hrest]
          simp
      | quoted =>
          have hrest : scan (some ⟨.quoted, pending⟩) "\": None\x7d".toList =
              Scanner.step (some ⟨.code, pending⟩) '\x7d' := rfl
          rw [hrest]
          cases pending with
          | nil => decide
          | cons d ds =>
              by_cases hd : d = '\x7d' <;>
                simp [Scanner.step, Scanner.next, Mode.next, Scanner.pendingBehind, bracketsBehind,
                  closer?, isCloser, hd]
      | escaped =>
          have hrest : scan (some ⟨.escaped, pending⟩) "\": None\x7d".toList =
              some ⟨.quoted, pending⟩ := rfl
          rw [hrest]
          simp
      | comment =>
          rw [Scanner.scan_comment (by decide)]
          simp

/-- A dictionary with one key is closed exactly if the key keeps to its quotes. -/
theorem closed_entry_iff (k : String) : Closed (expr (.object [(k, .null)])) ↔ KeepsQuotes k := by
  have htext : (expr (.object [(k, .null)])).toList =
      "\x7b\"".toList ++ (k.toList ++ "\": None\x7d".toList) := by
    simp [expr, pairs, Expr.null, literal, commaSeparated]
  have hopen : scan (some ⟨.code, []⟩) "\x7b\"".toList = some ⟨.quoted, ['\x7d']⟩ := rfl
  rw [Closed, htext, Scanner.scan_append, Scanner.scan_append, hopen, scan_behind_key]
  rfl

/-- With identifiers for names and keys that keep to their quotes, the text of an expression is
closed exactly if there is no remark in it.  Only where there is one, keys also have to stay on
their line.  A key that does not keep to its quotes already breaks a dictionary of its own. -/
theorem expr_closed_iff
    (e : Expr) (hnames : ∀ x, .name x ∈ e.fragments → isIdentifier x = true)
    (hkeys : ∀ k, .key k ∈ e.fragments →
      KeepsQuotes k ∧ (.remark ∈ e.fragments → OneLine k)) :
    (Closed (expr e) ↔ .remark ∉ e.fragments) ∧
      ∀ k, Closed (expr (.object [(k, .null)])) ↔ KeepsQuotes k := by
  refine ⟨?_, closed_entry_iff⟩
  have hkept : ∀ f ∈ e.fragments, Kept (remarks e.fragments) f := by
    intro f hf
    cases f with
    | name x => exact hnames x hf
    | key k => exact (hkeys k hf).imp_right fun hline h => hline (List.contains_iff_mem.mp h)
    | remark => trivial
  have hreads := reads_expr e hkept []
  rw [← List.contains_iff_mem, Bool.not_eq_true, Closed]
  constructor
  · intro hclosed
    cases hremarks : remarks e.fragments with
    | false => exact hremarks
    | true =>
        obtain ⟨pending, hscan⟩ := hreads.commented hremarks hremarks
        rw [hclosed] at hscan
        cases hscan
  · exact hreads.shown

/-- The key behind the remark has two lines and keeps to its quotes.  The comment ends inside
of the key, and what the key goes on with makes up for it. -/
example :
    let key := "\\\n\x7b\\\""
    let e := Expr.array [.function ⟨"", [], [], false⟩, .object [(key, .null)]]
    .remark ∈ e.fragments ∧ KeepsQuotes key ∧ Closed (expr e) := by
  decide +kernel

/-- Nested calls and dictionaries with brackets, quotes and hash signs in strings.  One of the
keys has two lines. -/
def nestedDictionary : Expr :=
  .call (.ident "f")
    [.object [("a)\\\"", .string "(\"#"), ("b\\\n", .array [.string "]\n"])],
      .function ⟨"", ["x"], [.ret (some (.member (.ident "x") (.string "y") false))], false⟩,
      .member (.ident "g") (.string "[") true]

theorem closed_of_nestedDictionary : Closed (expr nestedDictionary) := by
  have hkept : ∀ f ∈ nestedDictionary.fragments, Kept false f := by decide +kernel
  have hshown : .remark ∉ nestedDictionary.fragments := by decide
  exact (expr_closed_iff nestedDictionary (fun x => hkept (.name x)) fun k hk =>
    ⟨(hkept (.key k) hk).1, fun h => absurd h hshown⟩).1.mpr hshown

/-- The key of the dictionary is a quote. -/
def quoteKey : Expr := .object [("\"", .number (.ofNat 1))]

theorem not_closed_of_quoteKey :
    expr quoteKey = "\x7b\"\"\": 1\x7d" ∧ ¬Closed (expr quoteKey) := by
  have htext : expr quoteKey = "\x7b\"\"\": 1\x7d" := by decide +kernel
  rw [htext]
  exact ⟨rfl, by decide⟩

end Python

end Bracket
