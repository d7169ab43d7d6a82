/-!
# Parsing text

A parser takes the characters that are left and yields a value and the
characters behind it, or fails.  `many` repeats a parser until it fails; the
number of characters left bounds the repetitions, since every repetition is
expected to take at least one of them.
-/

namespace Bracket

namespace Text

/-- A parser of characters. -/
abbrev Parser (α : Type) := StateT (List Char) Option α

namespace Parser

/-- A character with a property. -/
def satisfy (p : Char → Bool) : Parser Char := fun
  | [] => none
  | c :: rest => if p c then some (c, rest) else none

/-- The given character. -/
def char (c : Char) : Parser Unit := fun
  | [] => none
  | d :: rest => if c = d then some ((), rest) else none

/-- The given characters in order. -/
def word : List Char → Parser Unit
  | [] => pure ()
  | c :: cs => do
      char c
      word cs

/-- The end of the text. -/
def atEnd : Parser Unit := fun
  | [] => some ((), [])
  | _ => none

/-- The characters up to the first one without the property. -/
def takeWhile (p : Char → Bool) : Parser (List Char) := fun s =>
  some (s.takeWhile p, s.dropWhile p)

/-- The result of a parser, or nothing where it fails. -/
def perhaps {α : Type} (p : Parser α) : Parser (Option α) := fun s =>
  match p s with
  | some (a, rest) => some (some a, rest)
  | none => some (none, s)

/-- At most `n` results of a parser. -/
def upTo {α : Type} (p : Parser α) : Nat → Parser (List α)
  | 0 => pure []
  | n + 1 => do
      match ← perhaps p with
      | none => pure []
      | some a =>
          let rest ← upTo p n
          pure (a :: rest)

/-- The results of a parser until it fails. -/
def many {α : Type} (p : Parser α) : Parser (List α) := do
  let s ← get
  upTo p s.length

/-- Exactly `n` results of a parser. -/
def exactly {α : Type} (p : Parser α) : Nat → Parser (List α)
  | 0 => pure []
  | n + 1 => do
      let a ← p
      let rest ← exactly p n
      pure (a :: rest)

/-- One or more results with a separator between them. -/
def separated {α : Type} (p : Parser α) (separator : Parser Unit) : Parser (List α) := do
  let first ← p
  let rest ← many do
    separator
    p
  pure (first :: rest)

end Parser

end Text

end Bracket
