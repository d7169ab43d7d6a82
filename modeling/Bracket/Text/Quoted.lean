/-!
# Quoted text

Text between double quotes writes five characters with a backslash: the quote,
the backslash, line feed, carriage return and tab.  `escape` does this in one
pass over the text.  `escapeInStages` replaces one character after the other
and starts with the backslash, so that no later stage sees a backslash of its
own making.
-/

namespace Bracket

namespace Text

/-- The letter that stands behind a backslash for a character that may not
stand for itself. -/
def escapeLetter? : Char → Option Char
  | '\\' => some '\\'
  | '"' => some '"'
  | '\n' => some 'n'
  | '\r' => some 'r'
  | '\t' => some 't'
  | _ => none

/-- The written form of one character. -/
def escapeChar (c : Char) : List Char :=
  match escapeLetter? c with
  | some letter => ['\\', letter]
  | none => [c]

/-- The written form of a text, one character at a time. -/
def escape (s : List Char) : List Char := s.flatMap escapeChar

/-- Replace every occurrence of one character by a text. -/
def substitute
    (c : Char) (replacement : List Char) (s : List Char) : List Char :=
  s.flatMap fun d => if d = c then replacement else [d]

/-- The written form of a text, one kind of character at a time. -/
def escapeInStages (s : List Char) : List Char :=
  let s := substitute '\\' ['\\', '\\'] s
  let s := substitute '"' ['\\', '"'] s
  let s := substitute '\n' ['\\', 'n'] s
  let s := substitute '\r' ['\\', 'r'] s
  substitute '\t' ['\\', 't'] s

/-- A text in double quotes, escaped in one pass. -/
def quoted (s : String) : String :=
  String.ofList ('"' :: escape s.toList ++ ['"'])

/-- A text in double quotes, escaped in stages. -/
def quotedInStages (s : String) : String :=
  String.ofList ('"' :: escapeInStages s.toList ++ ['"'])

end Text

end Bracket
