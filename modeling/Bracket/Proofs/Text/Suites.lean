import Mathlib.Data.List.Chain
import Bracket.Proofs.Text.Writes

/-!
# Indented text

In a language whose blocks are made by indentation, a line that ends with a colon opens a
suite: the next line is indented by one more step.  Behind any other line no deeper line may
follow.  This is a property of the text alone, read line by line.

Lines that are put together from statements and clauses at a common depth have this property
at every width.
-/

namespace Bracket

namespace Text

/-- The lines of a text; a line feed ends a line. -/
def linesOf : List Char → List (List Char)
  | [] => []
  | c :: rest =>
      if c = '\n' then [] :: linesOf rest
      else (c :: (linesOf rest).headD []) :: (linesOf rest).tail

/-- The number of spaces before a line. -/
def indentationOf (line : List Char) : Nat := (line.takeWhile (· == ' ')).length

/-- The line is the head of a compound statement. -/
def opensSuite (line : List Char) : Bool := line.getLast? == some ':'

/-- How the indentation of a line may follow that of the line before. -/
def Follows (width : Nat) (line next : List Char) : Prop :=
  if opensSuite line then indentationOf next = indentationOf line + width
  else indentationOf next ≤ indentationOf line

instance (width : Nat) (line next : List Char) : Decidable (Follows width line next) := by
  unfold Follows
  infer_instance

/-- A text whose first line stands at the margin, in which a line behind the head of a compound
statement is one step deeper and no other line is deeper than the line before. -/
structure WellIndented (width : Nat) (text : String) : Prop where
  margin : ∀ line ∈ (linesOf text.toList).head?, indentationOf line = 0
  steps : (linesOf text.toList).IsChain (Follows width)
  closed : ∀ line ∈ (linesOf text.toList).getLast?, opensSuite line = false

theorem linesOf_append_newline
    {line : List Char} (rest : List Char) (h : '\n' ∉ line) :
    linesOf (line ++ '\n' :: rest) = line :: linesOf rest := by
  induction line with
  | nil => rw [List.nil_append, linesOf, if_pos rfl]
  | cons c line ih =>
      obtain ⟨hc, hline⟩ := not_or.mp (mt List.mem_cons.mpr h)
      rw [List.cons_append, linesOf, if_neg (Ne.symm hc), ih hline]
      rfl

/-! ## Lines that form suites -/

/-- A text that fills the rest of a line behind its indentation. -/
structure Inline (text : String) : Prop where
  oneLine : '\n' ∉ text.toList
  flush : text.toList.head? ≠ some ' '

/-- Lines of statements at a common depth: simple statements, clauses with their suites, and
one after the other. -/
inductive Suite : Nat → List Line → Prop where
  | line {d : Nat} {text : String} (hinline : Inline text)
      (hcomplete : opensSuite text.toList = false) : Suite d [⟨d, text⟩]
  | clause {d : Nat} {text : String} {body : List Line} (hinline : Inline text)
      (hopens : opensSuite text.toList = true) (hbody : Suite (d + 1) body) :
      Suite d (⟨d, text⟩ :: body)
  | append {d : Nat} {a b : List Line} (ha : Suite d a) (hb : Suite d b) : Suite d (a ++ b)

/-- The characters of a line with its indentation. -/
def Line.chars (width : Nat) (line : Line) : List Char :=
  List.replicate (line.depth * width) ' ' ++ line.text.toList

theorem Inline.indentationOf_chars
    {line : Line} (h : Inline line.text) (width : Nat) :
    indentationOf (line.chars width) = line.depth * width := by
  have hspaces : ∀ c ∈ List.replicate (line.depth * width) ' ', (c == ' ') = true := by
    intro c hc
    rw [List.eq_of_mem_replicate hc]
    rfl
  have hrest : line.text.toList.takeWhile (· == ' ') = [] := by
    cases htext : line.text.toList with
    | nil => rfl
    | cons c rest =>
        have hc : (c == ' ') ≠ true := by
          intro hc
          exact h.flush (by rw [htext, List.head?_cons, eq_of_beq hc])
        exact List.takeWhile_cons_of_neg hc
  rw [indentationOf, Line.chars, List.takeWhile_append_of_pos hspaces, hrest, List.append_nil,
    List.length_replicate]

theorem opensSuite_chars
    (width : Nat) (line : Line) :
    opensSuite (line.chars width) = opensSuite line.text.toList := by
  rw [opensSuite, opensSuite, Line.chars, List.getLast?_append]
  cases htext : line.text.toList.getLast? with
  | some c => rfl
  | none =>
      rw [Option.none_or, List.getLast?_replicate]
      split
      · rfl
      · rfl

theorem Line.newline_not_mem_chars
    {line : Line} (h : Inline line.text) (width : Nat) : '\n' ∉ line.chars width := by
  intro hmem
  rcases List.mem_append.mp hmem with hmem | hmem
  · exact absurd (List.eq_of_mem_replicate hmem) (by decide)
  · exact h.oneLine hmem

theorem linesOf_renderLines
    {lines : List Line} (h : ∀ line ∈ lines, Inline line.text) (width : Nat) :
    linesOf (renderLines width lines).toList = lines.map (Line.chars width) := by
  induction lines with
  | nil => rfl
  | cons line lines ih =>
      obtain ⟨hline, hlines⟩ := List.forall_mem_cons.mp h
      rw [toList_renderLines_cons, List.map_cons, ← ih hlines]
      exact linesOf_append_newline _ (Line.newline_not_mem_chars hline width)

namespace Suite

variable {d : Nat} {lines : List Line}

theorem inline (h : Suite d lines) : ∀ line ∈ lines, Inline line.text := by
  induction h with
  | line hinline _ => simpa using hinline
  | clause hinline _ _ ih => exact List.forall_mem_cons.mpr ⟨hinline, ih⟩
  | append _ _ iha ihb => exact List.forall_mem_append.mpr ⟨iha, ihb⟩

/-- Statements begin at their depth. -/
theorem head_depth (h : Suite d lines) : ∃ line, lines.head? = some line ∧ line.depth = d := by
  induction h with
  | line _ _ => exact ⟨_, rfl, rfl⟩
  | clause _ _ _ _ => exact ⟨_, rfl, rfl⟩
  | append _ _ iha _ =>
      obtain ⟨line, hhead, hdepth⟩ := iha
      exact ⟨line, by rw [List.head?_append, hhead, Option.some_or], hdepth⟩

/-- Statements end with a line that opens no suite, at their depth or deeper. -/
theorem getLast_depth
    (h : Suite d lines) :
    ∃ line, lines.getLast? = some line ∧ d ≤ line.depth ∧ opensSuite line.text.toList = false := by
  induction h with
  | line _ hcomplete => exact ⟨_, rfl, Nat.le_refl _, hcomplete⟩
  | clause _ _ _ ih =>
      obtain ⟨line, hlast, hdepth, hcomplete⟩ := ih
      refine ⟨line, ?_, by omega, hcomplete⟩
      rw [List.getLast?_cons, hlast]
      rfl
  | append _ _ _ ihb =>
      obtain ⟨line, hlast, hdepth, hcomplete⟩ := ihb
      refine ⟨line, ?_, hdepth, hcomplete⟩
      rw [List.getLast?_append, hlast, Option.some_or]

/-- Inside of statements every line may follow the line before. -/
theorem isChain
    (h : Suite d lines) (width : Nat) : (lines.map (Line.chars width)).IsChain (Follows width) := by
  induction h with
  | line _ _ => exact .singleton _
  | @clause d text body hinline hopens hbody ih =>
      obtain ⟨next, hnext, hdepth⟩ := hbody.head_depth
      have hnextInline := hbody.inline next (List.mem_of_head? hnext)
      have hown : indentationOf (Line.chars width ⟨d, text⟩) = d * width :=
        Inline.indentationOf_chars hinline width
      rw [List.map_cons]
      refine List.isChain_cons.mpr ⟨?_, ih⟩
      rw [List.head?_map, hnext]
      rintro _ ⟨⟩
      rw [Follows, opensSuite_chars, if_pos hopens, hnextInline.indentationOf_chars, hown,
        hdepth, Nat.succ_mul]
  | append ha hb iha ihb =>
      obtain ⟨last, hlast, habove, hcomplete⟩ := ha.getLast_depth
      obtain ⟨next, hnext, hdepth⟩ := hb.head_depth
      have hlastInline := ha.inline last (List.mem_of_getLast? hlast)
      have hnextInline := hb.inline next (List.mem_of_head? hnext)
      rw [List.map_append]
      refine iha.append ihb ?_
      rw [List.getLast?_map, hlast, List.head?_map, hnext]
      rintro _ ⟨⟩ _ ⟨⟩
      rw [Follows, opensSuite_chars, if_neg (by rw [hcomplete]; decide),
        hnextInline.indentationOf_chars, hlastInline.indentationOf_chars, hdepth]
      exact Nat.mul_le_mul_right width habove

/-- Statements at the margin are well indented. -/
theorem wellIndented
    (h : Suite 0 lines) (width : Nat) : WellIndented width (renderLines width lines) := by
  have hlines := linesOf_renderLines h.inline width
  obtain ⟨first, hfirst, hdepth⟩ := h.head_depth
  obtain ⟨last, hlast, -, hcomplete⟩ := h.getLast_depth
  constructor
  · rw [hlines, List.head?_map, hfirst]
    rintro _ ⟨⟩
    rw [(h.inline first (List.mem_of_head? hfirst)).indentationOf_chars, hdepth, Nat.zero_mul]
  · rw [hlines]
    exact h.isChain width
  · rw [hlines, List.getLast?_map, hlast]
    rintro _ ⟨⟩
    rw [opensSuite_chars, hcomplete]

end Suite

end Text

end Bracket
