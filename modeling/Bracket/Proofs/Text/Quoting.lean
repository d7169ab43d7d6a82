import Bracket.Text.Quoted

/-!
# Reading quoted text

Replacing the special characters one kind after the other gives the same text as replacing them
in one pass, since no stage changes what an earlier one has put in.

A reader that goes through a quoted text character by character is inside of the quotes again
behind every escaped text, whatever the text says.  One that also undoes the escapes finds the
text itself, and it stops at the closing quote, whatever stands behind it.
-/

namespace Bracket

namespace Text

theorem escapeInStages_append
    (s t : List Char) : escapeInStages (s ++ t) = escapeInStages s ++ escapeInStages t := by
  simp only [escapeInStages, substitute, List.flatMap_append]

/-- No stage changes what an earlier one has put in. -/
theorem escapeInStages_singleton (c : Char) : escapeInStages [c] = escapeChar c := by
  by_cases hspecial : c ∈ ['\\', '"', '\n', '\r', '\t']
  · simp only [List.mem_cons, List.not_mem_nil, or_false] at hspecial
    rcases hspecial with rfl | rfl | rfl | rfl | rfl <;> decide
  · simp only [List.mem_cons, List.not_mem_nil, or_false, not_or] at hspecial
    obtain ⟨hslash, hquote, hfeed, hreturn, htab⟩ := hspecial
    simp [escapeInStages, substitute, escapeChar, escapeLetter?, hslash, hquote, hfeed, hreturn,
      htab]

theorem escapeInStages_eq_escape (s : List Char) : escapeInStages s = escape s := by
  induction s with
  | nil => rfl
  | cons c s ih =>
      rw [← List.singleton_append, escapeInStages_append, escapeInStages_singleton, ih]
      rfl

theorem quotedInStages_eq_quoted (s : String) : quotedInStages s = quoted s := by
  rw [quotedInStages, escapeInStages_eq_escape, quoted]

/-- A character that stands for itself does not end a literal or begin an escape. -/
theorem ne_of_escapeLetter?_eq_none
    {c : Char} (h : escapeLetter? c = none) : c ≠ '\\' ∧ c ≠ '"' ∧ c ≠ '\n' := by
  refine ⟨?_, ?_, ?_⟩ <;> (rintro rfl; exact absurd h (by decide))

section Reader

variable {σ : Type} {next : σ → Char → σ} {inside behind : σ}

/-- A reader inside of quotes that skips the character behind a backslash stays inside. -/
theorem foldl_escape
    (hplain : ∀ c, c ≠ '\\' → c ≠ '"' → c ≠ '\n' → next inside c = inside)
    (hslash : next inside '\\' = behind) (hletter : ∀ c, next behind c = inside)
    (s : List Char) : (escape s).foldl next inside = inside := by
  induction s with
  | nil => rfl
  | cons c s ih =>
      have hchar : (escapeChar c).foldl next inside = inside := by
        unfold escapeChar
        cases hc : escapeLetter? c with
        | none =>
            obtain ⟨hslashed, hquote, hfeed⟩ := ne_of_escapeLetter?_eq_none hc
            exact hplain c hslashed hquote hfeed
        | some letter => simp [hslash, hletter]
      rw [escape, List.flatMap_cons, List.foldl_append, hchar]
      exact ih

end Reader

/-! ## Undoing the escapes -/

/-- The character that a letter behind a backslash stands for. -/
def unescapeLetter? : Char → Option Char
  | '\\' => some '\\'
  | '"' => some '"'
  | 'n' => some '\n'
  | 'r' => some '\r'
  | 't' => some '\t'
  | _ => none

/-- Read behind an opening quote up to the first quote without a backslash.  The result is what
the characters in between stand for, and what follows the closing quote. -/
def readQuoted : List Char → Option (List Char × List Char)
  | [] => none
  | '"' :: rest => some ([], rest)
  | '\\' :: [] => none
  | '\\' :: letter :: rest => do
      let c ← unescapeLetter? letter
      (readQuoted rest).map fun (s, rest) => (c :: s, rest)
  | c :: rest => (readQuoted rest).map fun (s, rest) => (c :: s, rest)

theorem unescapeLetter?_of_escapeLetter?
    {c letter : Char} (h : escapeLetter? c = some letter) : unescapeLetter? letter = some c := by
  unfold escapeLetter? at h
  split at h <;> cases h <;> rfl

/-- A character that is neither a quote nor a backslash stands for itself. -/
theorem readQuoted_cons
    {c : Char} (hquote : c ≠ '"') (hslash : c ≠ '\\') (u : List Char) :
    readQuoted (c :: u) = (readQuoted u).map fun (s, rest) => (c :: s, rest) := by
  rw [readQuoted]
  · exact hquote
  · exact fun h _ => hslash h
  · exact fun _ _ h _ => hslash h

theorem readQuoted_escapeChar
    (c : Char) (u : List Char) :
    readQuoted (escapeChar c ++ u) = (readQuoted u).map fun (s, rest) => (c :: s, rest) := by
  unfold escapeChar
  cases hc : escapeLetter? c with
  | none =>
      obtain ⟨hslash, hquote, -⟩ := ne_of_escapeLetter?_eq_none hc
      exact readQuoted_cons hquote hslash u
  | some letter => simp [readQuoted, unescapeLetter?_of_escapeLetter? hc]

/-- The escaped text is undone, and the quote behind it is the first one without a backslash. -/
theorem readQuoted_escape
    (s t : List Char) : readQuoted (escape s ++ '"' :: t) = some (s, t) := by
  induction s with
  | nil => rfl
  | cons c s ih =>
      rw [escape, List.flatMap_cons, ← escape, List.append_assoc, readQuoted_escapeChar, ih]
      rfl

/-- The text is a literal for `s`: it begins with a quote, and behind this quote a reader finds
`s` and stops at the end of the text, whatever follows. -/
def Quotes (s text : String) : Prop :=
  ∃ inside, text.toList = '"' :: inside ∧
    ∀ t, readQuoted (inside ++ t) = some (s.toList, t)

theorem quotes_quoted (s : String) : Quotes s (quoted s) := by
  refine ⟨escape s.toList ++ ['"'], String.toList_ofList, fun t => ?_⟩
  rw [List.append_assoc]
  exact readQuoted_escape s.toList t

theorem quotes_quotedInStages (s : String) : Quotes s (quotedInStages s) := by
  rw [quotedInStages_eq_quoted]
  exact quotes_quoted s

end Text

end Bracket
