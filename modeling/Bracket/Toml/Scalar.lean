import Bracket.Double.Basic
import Bracket.Text.Parsing
import Bracket.Toml.Basic

/-!
# Scalars of TOML

Blanks, comments, the four kinds of strings, numbers, truth values, dates and
times.
-/

namespace Bracket

namespace Toml

open Text (Parser)
open Text.Parser

/-! ## Blanks and comments -/

def isBlank (c : Char) : Bool := c == ' ' || c == '\t'

/-- A character beyond ASCII. -/
def isForeign (c : Char) : Bool := decide (0x80 ≤ c.toNat)

/-- A character that may stand in a comment or a literal string. -/
def isPrintable (c : Char) : Bool :=
  c == '\t' || decide (0x20 ≤ c.toNat ∧ c.toNat ≤ 0x7E) || isForeign c

def blanks : Parser Unit := do
  let _ ← takeWhile isBlank

def newline : Parser Unit := char '\n' <|> word ['\r', '\n']

def comment : Parser Unit := do
  char '#'
  let _ ← takeWhile isPrintable

/-- Blanks, and line ends with comments before them. -/
def blankLines : Parser Unit := do
  let _ ← many do
    (do let _ ← satisfy isBlank) <|> (do let _ ← perhaps comment; newline)

/-! ## Strings -/

def hexDigit : Parser Nat := do
  let c ← satisfy fun c =>
    c.isDigit || decide ('a' ≤ c ∧ c ≤ 'f') || decide ('A' ≤ c ∧ c ≤ 'F')
  pure (if c.isDigit then c.toNat - '0'.toNat
    else if 'a' ≤ c then c.toNat - 'a'.toNat + 10
    else c.toNat - 'A'.toNat + 10)

/-- The character with a number of `n` hexadecimal digits. -/
def codePoint (n : Nat) : Parser Char := do
  let digits ← exactly hexDigit n
  let code := digits.foldl (fun v d => 16 * v + d) 0
  if code.isValidChar then pure (Char.ofNat code) else failure

/-- The rest of an escape behind its backslash. -/
def escape : Parser Char := do
  let c ← satisfy fun _ => true
  match c with
  | 'b' => pure '\x08'
  | 't' => pure '\t'
  | 'n' => pure '\n'
  | 'f' => pure '\x0c'
  | 'r' => pure '\r'
  | '"' => pure '"'
  | '\\' => pure '\\'
  | 'u' => codePoint 4
  | 'U' => codePoint 8
  | _ => failure

def basicChar : Parser Char :=
  (satisfy fun c => isPrintable c && c != '"' && c != '\\') <|> (do char '\\'; escape)

def basicString : Parser (List Char) := do
  char '"'
  let s ← many basicChar
  char '"'
  pure s

def literalString : Parser (List Char) := do
  char '\''
  let s ← takeWhile fun c => isPrintable c && c != '\''
  char '\''
  pure s

/-- One or two quotes inside a string between triple quotes. -/
def innerQuotes (quote : Char) : Parser (List Char) := do
  let run ← takeWhile (· == quote)
  if 1 ≤ run.length ∧ run.length ≤ 2 then pure run else failure

/-- The closing triple quotes, and up to two quotes before them that still
belong to the string. -/
def closingQuotes (quote : Char) : Parser (List Char) := do
  let run ← takeWhile (· == quote)
  if 3 ≤ run.length ∧ run.length ≤ 5 then pure (run.drop 3) else failure

/-- A line end in a string is a line feed. -/
def innerNewline : Parser (List Char) := do
  newline
  pure ['\n']

/-- A backslash at the end of a line joins it with the next text. -/
def joinedLines : Parser (List Char) := do
  char '\\'
  blanks
  newline
  let _ ← many ((do let _ ← satisfy isBlank) <|> newline)
  pure []

def multilineBasicPart : Parser (List Char) :=
  innerNewline <|> joinedLines <|> (do let c ← basicChar; pure [c]) <|> innerQuotes '"'

def multilineBasicString : Parser (List Char) := do
  word ['"', '"', '"']
  let _ ← perhaps newline
  let parts ← many multilineBasicPart
  let quotes ← closingQuotes '"'
  pure (parts.flatten ++ quotes)

def multilineLiteralPart : Parser (List Char) :=
  innerNewline <|> (do let c ← satisfy fun c => isPrintable c && c != '\''; pure [c])
    <|> innerQuotes '\''

def multilineLiteralString : Parser (List Char) := do
  word ['\'', '\'', '\'']
  let _ ← perhaps newline
  let parts ← many multilineLiteralPart
  let quotes ← closingQuotes '\''
  pure (parts.flatten ++ quotes)

def string : Parser String := do
  let s ← multilineBasicString <|> multilineLiteralString <|> basicString <|> literalString
  pure (String.ofList s)

/-! ## Numbers -/

def digit : Parser Char := satisfy Char.isDigit

/-- One or more digits with single underscores between them. -/
def digitGroups (digit : Parser Char) : Parser (List Char) := do
  let first ← digit
  let rest ← many (digit <|> (do char '_'; digit))
  pure (first :: rest)

def digitsValue (base : Nat) (digits : List Char) : Nat :=
  digits.foldl (fun v c =>
    base * v + (if c.isDigit then c.toNat - '0'.toNat
      else if 'a' ≤ c then c.toNat - 'a'.toNat + 10
      else c.toNat - 'A'.toNat + 10)) 0

/-- The sign of a number. -/
def sign : Parser Bool := do
  match ← perhaps (satisfy fun c => c == '+' || c == '-') with
  | some '-' => pure true
  | _ => pure false

/-- Decimal digits without a zero in front. -/
def decimalDigits : Parser (List Char) := do
  let s ← get
  match s with
  | '0' :: _ => do
      char '0'
      pure ['0']
  | _ => digitGroups digit

/-- A whole number in another base behind its mark. -/
def basedInteger (mark : Char) (base : Nat) (isDigit : Char → Bool) : Parser Int := do
  word ['0', mark]
  let digits ← digitGroups (satisfy isDigit)
  pure (digitsValue base digits)

def isHexDigit (c : Char) : Bool :=
  c.isDigit || decide ('a' ≤ c ∧ c ≤ 'f') || decide ('A' ≤ c ∧ c ≤ 'F')

def decimalInteger : Parser Int := do
  let negative ← sign
  let digits ← decimalDigits
  let size : Int := digitsValue 10 digits
  pure (if negative then -size else size)

/-- A whole number in the range of 64-bit words with sign. -/
def integer : Parser Int := do
  let i ← basedInteger 'x' 16 isHexDigit
    <|> basedInteger 'o' 8 (fun c => decide ('0' ≤ c ∧ c ≤ '7'))
    <|> basedInteger 'b' 2 (fun c => c == '0' || c == '1')
    <|> decimalInteger
  if -Int.pow 2 63 ≤ i ∧ i < Int.pow 2 63 then pure i else failure

def fraction : Parser (List Char) := do
  char '.'
  digitGroups digit

def exponent : Parser Int := do
  let _ ← satisfy fun c => c == 'e' || c == 'E'
  let negative ← sign
  let digits ← digitGroups digit
  let size : Int := digitsValue 10 digits
  pure (if negative then -size else size)

/-- A number with a fraction or an exponent.  Too large a positive number is
refused. -/
def decimalFloat : Parser Unit := do
  let negative ← sign
  let whole ← decimalDigits
  let fraction ← perhaps fraction
  let exponent ← perhaps exponent
  if fraction.isNone && exponent.isNone then failure
  let places := fraction.getD []
  let size := Double.ofDecimal? negative (digitsValue 10 (whole ++ places))
    (exponent.getD 0 - places.length)
  if size.isNone && !negative then failure

def specialFloat : Parser Unit := do
  let _ ← sign
  word ['i', 'n', 'f'] <|> word ['n', 'a', 'n']

def boolean : Parser Bool :=
  (do word ['t', 'r', 'u', 'e']; pure true) <|> (do word ['f', 'a', 'l', 's', 'e']; pure false)

/-! ## Dates and times -/

/-- A number of exactly `n` digits in a range. -/
def digitsIn (n low high : Nat) : Parser Nat := do
  let digits ← exactly digit n
  let value := digitsValue 10 digits
  if low ≤ value ∧ value ≤ high then pure value else failure

def isLeapYear (year : Nat) : Bool :=
  year % 4 == 0 && (year % 100 != 0 || year % 400 == 0)

def daysInMonth (year month : Nat) : Nat :=
  if month = 2 then (if isLeapYear year then 29 else 28)
  else if month ∈ [4, 6, 9, 11] then 30
  else 31

def date : Parser Unit := do
  let year ← digitsIn 4 0 9999
  char '-'
  let month ← digitsIn 2 1 12
  char '-'
  let _ ← digitsIn 2 1 (daysInMonth year month)

def time : Parser Unit := do
  let _ ← digitsIn 2 0 23
  char ':'
  let _ ← digitsIn 2 0 59
  char ':'
  let _ ← digitsIn 2 0 60
  let _ ← perhaps do
    char '.'
    let _ ← digit
    takeWhile Char.isDigit

def offset : Parser Unit := do
  let c ← satisfy fun c => c == 'Z' || c == 'z' || c == '+' || c == '-'
  if c == '+' || c == '-' then
    let _ ← digitsIn 2 0 23
    char ':'
    let _ ← digitsIn 2 0 59

def dateTime : Parser Unit :=
  (do
    date
    let _ ← perhaps do
      let _ ← satisfy fun c => c == 'T' || c == 't' || c == ' '
      time
      perhaps offset)
    <|> time

/-- A value without parts. -/
def scalar : Parser Value :=
  (do let s ← string; pure (.string s))
    <|> (do dateTime; pure .dateTime)
    <|> (do decimalFloat; pure .float)
    <|> (do specialFloat; pure .float)
    <|> (do let i ← integer; pure (.integer i))
    <|> (do let b ← boolean; pure (.boolean b))

end Toml

end Bracket
