import Mathlib.Data.List.Forall2
import Bracket.Target.TypeScript
import Bracket.Text.Identifier

/-!
# Patterns read back

The text of a pattern has brackets around the slots of a tuple and commas between them.  A reader
goes through it character by character.  It keeps the slots of all tuples that are still open,
and the pattern that it has read last; a comma or a closing bracket makes this pattern a slot.

In front of the text of a pattern the reader has read nothing, and behind the text the pattern is
what it has read last, whatever tuples are open around it.  So each text comes from one pattern.
-/

namespace Bracket

namespace Pattern

/-! ## The reader -/

/-- The brackets around the slots of a tuple. -/
inductive Style where
  | round
  | square
  deriving DecidableEq, Repr

/-- What a reader of patterns knows. -/
structure Reading where
  /-- The slots of the open tuples, the innermost tuple and the latest slot first. -/
  opened : List (List Pattern)
  /-- The pattern that was read last, if no comma stands behind it. -/
  last : Option Pattern

namespace Style

def opening : Style → Char
  | .round => '('
  | .square => '['

def closing : Style → Char
  | .round => ')'
  | .square => ']'

/-- Read one character, unless it has no place there. -/
def next (style : Style) : Reading → Char → Option Reading
  | ⟨opened, last⟩, c =>
      if c = style.opening then
        match last with
        | none => some ⟨[] :: opened, none⟩
        | some _ => none
      else if c = style.closing then
        match opened with
        | slots :: outer => some ⟨outer, some (.tuple (slots.reverse ++ last.toList))⟩
        | [] => none
      else if c = ',' then
        match opened, last with
        | slots :: outer, some p => some ⟨(p :: slots) :: outer, none⟩
        | _, _ => none
      else if c = ' ' then some ⟨opened, last⟩
      else
        match last with
        | none => some ⟨opened, some (.name (String.singleton c))⟩
        | some (.name n) => some ⟨opened, some (.name (n.push c))⟩
        | some (.tuple _) => none

/-- The pattern that a text stands for. -/
def read? (style : Style) (text : String) : Option Pattern := do
  let r ← text.toList.foldlM style.next ⟨[], none⟩
  if r.opened.isEmpty then r.last else none

/-! ## Steps of the reader -/

variable (style : Style) (opened : List (List Pattern)) (slots : List Pattern)

theorem next_opening :
    style.next ⟨opened, none⟩ style.opening = some ⟨[] :: opened, none⟩ := by
  simp [next]

theorem next_closing (last : Option Pattern) :
    style.next ⟨slots :: opened, last⟩ style.closing =
      some ⟨opened, some (.tuple (slots.reverse ++ last.toList))⟩ := by
  cases style <;> simp [next, opening, closing]

theorem next_comma (p : Pattern) :
    style.next ⟨slots :: opened, some p⟩ ',' = some ⟨(p :: slots) :: opened, none⟩ := by
  cases style <;> simp [next, opening, closing]

theorem next_space (r : Reading) : style.next r ' ' = some r := by
  cases style <;> simp [next, opening, closing]

/-- A character of a name is none of those that take a pattern apart. -/
theorem ne_of_isNamePart
    {c : Char} (h : Text.isNamePart c = true) :
    c ≠ style.opening ∧ c ≠ style.closing ∧ c ≠ ',' ∧ c ≠ ' ' := by
  have hnone : [style.opening, style.closing, ',', ' '].any Text.isNamePart = false := by
    cases style <;> decide +kernel
  simp only [List.any_cons, List.any_nil, Bool.or_false, Bool.or_eq_false_iff] at hnone
  obtain ⟨hopening, hclosing, hcomma, hspace⟩ := hnone
  refine ⟨?_, ?_, ?_, ?_⟩ <;> (rintro rfl; simp_all)

/-! ## Reading what is written -/

/-- In front of the text nothing was read, and behind it the pattern was. -/
def Reads (text : String) (p : Pattern) : Prop :=
  ∀ opened, text.toList.foldlM style.next ⟨opened, none⟩ = some ⟨opened, some p⟩

variable {style}

theorem Reads.read?_eq {text : String} {p : Pattern} (h : style.Reads text p) :
    style.read? text = some p := by
  rw [read?, h []]
  rfl

theorem foldlM_nameParts
    (n : String) {cs : List Char} (h : ∀ c ∈ cs, Text.isNamePart c = true) :
    cs.foldlM style.next ⟨opened, some (.name n)⟩ =
      some ⟨opened, some (.name (n ++ String.ofList cs))⟩ := by
  induction cs generalizing n with
  | nil => simp
  | cons c cs ih =>
      obtain ⟨hc, hcs⟩ := List.forall_mem_cons.mp h
      obtain ⟨hopening, hclosing, hcomma, hspace⟩ := style.ne_of_isNamePart hc
      have hstep : style.next ⟨opened, some (.name n)⟩ c =
          some ⟨opened, some (.name (n.push c))⟩ := by
        simp [next, hopening, hclosing, hcomma, hspace]
      have hname : n.push c ++ String.ofList cs = n ++ String.ofList (c :: cs) := by
        simp [← String.toList_inj]
      rw [List.foldlM_cons, hstep, ← hname]
      exact ih (n.push c) hcs

theorem reads_name
    {n : String} (h : Text.isIdentifier n = true) : style.Reads n (.name n) := by
  intro opened
  obtain ⟨c, cs, hchars, hstart, hcs⟩ := Text.exists_of_isSpelled h
  obtain ⟨hopening, hclosing, hcomma, hspace⟩ :=
    style.ne_of_isNamePart (Text.isNamePart_of_isNameStart hstart)
  have hstep : style.next ⟨opened, none⟩ c =
      some ⟨opened, some (.name (String.singleton c))⟩ := by
    simp [next, hopening, hclosing, hcomma, hspace]
  have hname : String.singleton c ++ String.ofList cs = n := by
    simp [← String.toList_inj, hchars]
  rw [hchars, List.foldlM_cons, hstep, ← hname]
  exact foldlM_nameParts opened (String.singleton c) hcs

/-- Slots up to the closing bracket follow those that were read before. -/
theorem foldlM_slots
    {texts : List String} {ps : List Pattern} (h : List.Forall₂ style.Reads texts ps) :
    ((Text.commaSeparated texts).toList ++ [style.closing]).foldlM style.next
        ⟨slots :: opened, none⟩ =
      some ⟨opened, some (.tuple (slots.reverse ++ ps))⟩ := by
  rw [Text.commaSeparated, String.toList_intercalate]
  -- Each comma moves a slot to those that were read before, so these vary.
  induction h generalizing slots with
  | nil => simp [next_closing]
  | @cons text p texts ps htext htexts ih =>
      cases htexts with
      | nil => simp [htext (slots :: opened), next_closing]
      | @cons text' q texts ps htext' htexts =>
          have hseparator : ", ".toList.foldlM style.next ⟨slots :: opened, some p⟩ =
              some ⟨(p :: slots) :: opened, none⟩ := by
            simp [next_comma, next_space]
          rw [List.map_cons, List.map_cons, List.intercalate_cons_cons, ← List.map_cons,
            List.append_assoc, List.append_assoc, List.foldlM_append, htext,
            Option.bind_eq_bind, Option.bind_some, List.foldlM_append, hseparator,
            Option.bind_eq_bind, Option.bind_some, ih, List.reverse_cons, List.append_assoc]
          rfl

theorem reads_tuple
    {texts : List String} {ps : List Pattern} {text : String}
    (h : List.Forall₂ style.Reads texts ps)
    (htext : text.toList =
      style.opening :: ((Text.commaSeparated texts).toList ++ [style.closing])) :
    style.Reads text (.tuple ps) := by
  intro opened
  rw [htext, List.foldlM_cons, next_opening]
  exact foldlM_slots opened [] h

/-- The slot in front of a comma is the only one. -/
theorem reads_single
    {slot text : String} {p : Pattern} (h : style.Reads slot p)
    (htext : text.toList = style.opening :: (slot.toList ++ [',', style.closing])) :
    style.Reads text (.tuple [p]) := by
  intro opened
  rw [htext, List.foldlM_cons, next_opening, Option.bind_eq_bind, Option.bind_some,
    List.foldlM_append, h]
  simp [next_comma, next_closing]

end Style

/-! ## The two texts of a pattern -/

theorem reads_display_tuple
    {slots : List Pattern} (h : List.Forall₂ Style.round.Reads (displayList slots) slots) :
    Style.round.Reads (display (.tuple slots)) (.tuple slots) := by
  cases slots with
  | nil => exact Style.reads_tuple h rfl
  | cons p ps =>
      cases ps with
      | nil =>
          rw [displayList, List.forall₂_cons] at h
          exact Style.reads_single h.1 (by simp [display, Style.opening, Style.closing])
      | cons q ps =>
          have hdisplay : display (.tuple (p :: q :: ps)) =
              "(" ++ Text.commaSeparated (displayList (p :: q :: ps)) ++ ")" := rfl
          exact Style.reads_tuple h (by simp [hdisplay, Style.opening, Style.closing])

mutual

theorem reads_display :
    (p : Pattern) → (∀ n ∈ p.names, Text.isIdentifier n = true) → Style.round.Reads p.display p
  | .name n, h => by
      rw [display]
      exact Style.reads_name (h n (by simp [names]))
  | .tuple slots, h => by
      rw [names] at h
      exact reads_display_tuple (reads_displayList slots h)

theorem reads_displayList :
    (ps : List Pattern) → (∀ n ∈ namesList ps, Text.isIdentifier n = true) →
      List.Forall₂ Style.round.Reads (displayList ps) ps
  | [], _ => by
      rw [displayList]
      exact .nil
  | p :: ps, h => by
      rw [namesList, List.forall_mem_append] at h
      rw [displayList]
      exact .cons (reads_display p h.1) (reads_displayList ps h.2)

end

mutual

theorem reads_typeScript :
    (p : Pattern) → (∀ n ∈ p.names, Text.isIdentifier n = true) →
      Style.square.Reads (TypeScript.pattern p) p
  | .name n, h => by
      rw [TypeScript.pattern]
      exact Style.reads_name (h n (by simp [names]))
  | .tuple slots, h => by
      rw [names] at h
      rw [TypeScript.pattern]
      refine Style.reads_tuple (reads_typeScriptList slots h) ?_
      simp [Style.opening, Style.closing]

theorem reads_typeScriptList :
    (ps : List Pattern) → (∀ n ∈ namesList ps, Text.isIdentifier n = true) →
      List.Forall₂ Style.square.Reads (TypeScript.patterns ps) ps
  | [], _ => by
      rw [TypeScript.patterns]
      exact .nil
  | p :: ps, h => by
      rw [namesList, List.forall_mem_append] at h
      rw [TypeScript.patterns]
      exact .cons (reads_typeScript p h.1) (reads_typeScriptList ps h.2)

end

/-- A pattern of identifiers is read back from both of its texts, so patterns with the same text
are the same. -/
theorem eq_of_same_text
    {p q : Pattern} (hp : ∀ n ∈ p.names, Text.isIdentifier n = true)
    (hq : ∀ n ∈ q.names, Text.isIdentifier n = true) :
    (Style.round.read? p.display = some p ∧ (p.display = q.display → p = q)) ∧
    (Style.square.read? (TypeScript.pattern p) = some p ∧
      (TypeScript.pattern p = TypeScript.pattern q → p = q)) := by
  have hround := (reads_display p hp).read?_eq
  have hsquare := (reads_typeScript p hp).read?_eq
  refine ⟨⟨hround, fun h => ?_⟩, hsquare, fun h => ?_⟩
  · rw [h, (reads_display q hq).read?_eq] at hround
    exact (Option.some.inj hround).symm
  · rw [h, (reads_typeScript q hq).read?_eq] at hsquare
    exact (Option.some.inj hsquare).symm

/-- A tuple in a tuple, with a single slot and without any, and the tuple without brackets. -/
theorem eq_of_same_text_nested :
    let p := tuple [name "a", tuple [tuple [], tuple [name "b"]]]
    let q := tuple [name "a", tuple [tuple [], name "b"]]
    p.display = "(a, ((), (b,)))" ∧ TypeScript.pattern p = "[a, [[], [b]]]" ∧
      Style.round.read? "(a, ((), (b,)))" = some p ∧ Style.square.read? "[a, [[], [b]]]" = some p ∧
      p.display ≠ q.display ∧ TypeScript.pattern p ≠ TypeScript.pattern q := by
  intro p q
  have hp : p.display = "(a, ((), (b,)))" := by decide +kernel
  have hp' : TypeScript.pattern p = "[a, [[], [b]]]" := by decide +kernel
  have hne : p ≠ q := by simp [p, q]
  obtain ⟨⟨hround, hdisplay⟩, hsquare, hpattern⟩ :=
    eq_of_same_text (p := p) (q := q) (by decide +kernel) (by decide +kernel)
  rw [hp] at hround
  rw [hp'] at hsquare
  exact ⟨hp, hp', hround, hsquare, mt hdisplay hne, mt hpattern hne⟩

end Pattern

end Bracket
