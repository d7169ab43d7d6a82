import Bracket.Text.CharacterClass

/-!
# Identifiers

Two notions of name.  A name of the statement language begins with an
alphabetic character or an underscore and goes on with alphabetic characters,
numbers and underscores.  A plain name uses ASCII letters, digits and
underscores only.

For all kinds of names the characters that may begin a name may also follow, so
the characters of a name are all of the second class.
-/

namespace Bracket

namespace Text

/-- A character that may begin a name. -/
def isNameStart (c : Char) : Bool := isAlphabetic c || c == '_'

/-- A character that may follow the first one of a name. -/
def isNamePart (c : Char) : Bool := isAlphabetic c || isNumeric c || c == '_'

/-- A non-empty list whose head and tail satisfy the two given tests. -/
def isSpelled (start part : Char → Bool) : List Char → Bool
  | [] => false
  | c :: rest => start c && rest.all part

/-- The text is a name. -/
def isIdentifier (s : String) : Bool := isSpelled isNameStart isNamePart s.toList

/-- The text is a name in which dollar signs also count as letters. -/
def isDollarIdentifier (s : String) : Bool :=
  isSpelled (fun c => isNameStart c || c == '$') (fun c => isNamePart c || c == '$') s.toList

/-- The text is a name of ASCII letters, digits and underscores. -/
def isPlainIdentifier (s : String) : Bool :=
  isSpelled (fun c => c.isAlpha || c == '_') (fun c => c.isAlphanum || c == '_') s.toList

/-! ## The characters of names -/

variable {start part : Char → Bool} {s : List Char}

/-- A spelled text is not empty. -/
theorem exists_of_isSpelled
    (h : isSpelled start part s = true) :
    ∃ first rest, s = first :: rest ∧ start first = true ∧ ∀ c ∈ rest, part c = true := by
  cases s with
  | nil => cases h
  | cons first rest =>
      rw [isSpelled, Bool.and_eq_true, List.all_eq_true] at h
      exact ⟨first, rest, rfl, h.1, h.2⟩

theorem part_of_isSpelled
    (h : isSpelled start part s = true) (hstart : ∀ c, start c = true → part c = true) :
    ∀ c ∈ s, part c = true := by
  obtain ⟨first, rest, rfl, hfirst, hrest⟩ := exists_of_isSpelled h
  exact List.forall_mem_cons.mpr ⟨hstart first hfirst, hrest⟩

theorem isNamePart_of_isNameStart
    {c : Char} (h : isNameStart c = true) : isNamePart c = true := by
  rw [isNameStart, Bool.or_eq_true] at h
  rw [isNamePart, Bool.or_eq_true, Bool.or_eq_true]
  exact h.imp_left .inl

theorem isNamePart_of_mem
    {x : String} (h : isIdentifier x = true) : ∀ c ∈ x.toList, isNamePart c = true :=
  part_of_isSpelled h fun _ => isNamePart_of_isNameStart

end Text

end Bracket
