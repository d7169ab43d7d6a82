import Bracket.Json.Basic

/-!
# Reading JSON text

A total reader for one JSON value with blanks around it.  It refuses control
characters inside strings, surrogates without their partner, and numbers that
are too large for a double.  When an object repeats a field, the last value
counts.

Every step of the nested readers takes one unit of fuel, and the wrapper
`ofText?` grants two units for each character of the input.
-/

namespace Bracket

namespace Json

namespace Reader

def isBlank (c : Char) : Bool := c == ' ' || c == '\t' || c == '\n' || c == '\r'

def skipBlanks (s : List Char) : List Char := s.dropWhile isBlank

/-! ## Numbers -/

/-- The value of a list of decimal digits. -/
def digitsValue (digits : List Char) : Nat :=
  digits.foldl (fun n c => 10 * n + (c.toNat - '0'.toNat)) 0

/-- The digits at the front of a text, and the rest. -/
def spanDigits (s : List Char) : List Char × List Char := s.span Char.isDigit

/-- The digits before the point: a single zero, or no zero in front. -/
def wholePart? (s : List Char) : Option (List Char × List Char) :=
  match spanDigits s with
  | ([], _) => none
  | (['0'], rest) => some (['0'], rest)
  | ('0' :: _, _) => none
  | (digits, rest) => some (digits, rest)

/-- The digits behind the point, none if there is no point. -/
def fractionPart? : List Char → Option (List Char × List Char)
  | '.' :: s =>
      match spanDigits s with
      | ([], _) => none
      | (digits, rest) => some (digits, rest)
  | s => some ([], s)

/-- The exponent, if there is one. -/
def exponentPart? : List Char → Option (Option Int × List Char)
  | c :: s =>
      if c == 'e' || c == 'E' then
        let (negative, s) : Bool × List Char := match s with
          | '-' :: rest => (true, rest)
          | '+' :: rest => (false, rest)
          | _ => (false, s)
        match spanDigits s with
        | ([], _) => none
        | (digits, rest) =>
            let size : Int := digitsValue digits
            some (some (if negative then -size else size), rest)
      else some (none, c :: s)
  | [] => some (none, [])

/-- A numeral at the front of a text. -/
def numeral? (s : List Char) : Option (Numeral × List Char) := do
  let (negative, s) : Bool × List Char := match s with
    | '-' :: rest => (true, rest)
    | _ => (false, s)
  let (whole, s) ← wholePart? s
  let (fraction, s) ← fractionPart? s
  let (exponent, s) ← exponentPart? s
  let n : Numeral :=
    { negative := negative
      mantissa := digitsValue (whole ++ fraction)
      exponent := exponent.getD 0 - fraction.length
      whole := fraction.isEmpty && exponent.isNone }
  if n.toDouble?.isSome then some (n, s) else none

/-! ## Strings -/

/-- A character of a string, or a 16-bit unit given by its number. -/
inductive Unit16 where
  | char (c : Char)
  | unit (n : Nat)

def hexValue? (c : Char) : Option Nat :=
  if c.isDigit then some (c.toNat - '0'.toNat)
  else if 'a' ≤ c ∧ c ≤ 'f' then some (c.toNat - 'a'.toNat + 10)
  else if 'A' ≤ c ∧ c ≤ 'F' then some (c.toNat - 'A'.toNat + 10)
  else none

/-- The character that a one-letter escape stands for. -/
def escaped? : Char → Option Char
  | '"' => some '"'
  | '\\' => some '\\'
  | '/' => some '/'
  | 'b' => some '\x08'
  | 'f' => some '\x0c'
  | 'n' => some '\n'
  | 'r' => some '\r'
  | 't' => some '\t'
  | _ => none

/-- The contents of a string up to its closing quote, and the rest. -/
def units? : List Char → Option (List Unit16 × List Char)
  | [] => none
  | '"' :: rest => some ([], rest)
  | '\\' :: 'u' :: a :: b :: c :: d :: rest => do
      let n := (← hexValue? a) * 4096 + (← hexValue? b) * 256 + (← hexValue? c) * 16
        + (← hexValue? d)
      let (units, rest) ← units? rest
      some (.unit n :: units, rest)
  | '\\' :: c :: rest => do
      let c ← escaped? c
      let (units, rest) ← units? rest
      some (.char c :: units, rest)
  | c :: rest =>
      if c.toNat < 0x20 || c == '\\' then none
      else do
        let (units, rest) ← units? rest
        some (.char c :: units, rest)

/-- Join surrogate pairs and refuse surrogates that stand alone. -/
def characters? : List Unit16 → Option (List Char)
  | [] => some []
  | .char c :: rest => (characters? rest).map (c :: ·)
  | .unit high :: .unit low :: rest =>
      if 0xD800 ≤ high ∧ high < 0xDC00 then
        if 0xDC00 ≤ low ∧ low < 0xE000 then
          let code := 0x10000 + (high - 0xD800) * 0x400 + (low - 0xDC00)
          (characters? rest).map (Char.ofNat code :: ·)
        else none
      else if 0xDC00 ≤ high ∧ high < 0xE000 then none
      else (characters? (.unit low :: rest)).map (Char.ofNat high :: ·)
  | .unit n :: rest =>
      if 0xD800 ≤ n ∧ n < 0xE000 then none
      else (characters? rest).map (Char.ofNat n :: ·)

/-- A string whose opening quote has been read. -/
def text? (s : List Char) : Option (String × List Char) := do
  let (units, rest) ← units? s
  let characters ← characters? units
  some (String.ofList characters, rest)

/-! ## Values -/

mutual

/-- A value at the front of a text. -/
def value? : Nat → List Char → Option (Json × List Char)
  | 0, _ => none
  | fuel + 1, s =>
      match skipBlanks s with
      | 'n' :: 'u' :: 'l' :: 'l' :: rest => some (.null, rest)
      | 't' :: 'r' :: 'u' :: 'e' :: rest => some (.bool true, rest)
      | 'f' :: 'a' :: 'l' :: 's' :: 'e' :: rest => some (.bool false, rest)
      | '"' :: rest => (text? rest).map fun (s, rest) => (.string s, rest)
      | '[' :: rest =>
          match skipBlanks rest with
          | ']' :: rest => some (.array [], rest)
          | _ => (elements? fuel rest).map fun (vs, rest) => (.array vs, rest)
      | '\x7b' :: rest =>
          match skipBlanks rest with
          | '\x7d' :: rest => some (.object [], rest)
          | _ => (fields? fuel rest []).map fun (fs, rest) => (.object fs, rest)
      | s => (numeral? s).map fun (n, rest) => (.number n, rest)

/-- One or more values with commas between them, and the closing bracket. -/
def elements? : Nat → List Char → Option (List Json × List Char)
  | 0, _ => none
  | fuel + 1, s => do
      let (v, rest) ← value? fuel s
      match skipBlanks rest with
      | ',' :: rest =>
          let (vs, rest) ← elements? fuel rest
          some (v :: vs, rest)
      | ']' :: rest => some ([v], rest)
      | _ => none

/-- One or more fields with commas between them, and the closing brace, added
to the fields already read. -/
def fields? :
    Nat → List Char → List (String × Json) → Option (List (String × Json) × List Char)
  | 0, _, _ => none
  | fuel + 1, s, done =>
      match skipBlanks s with
      | '"' :: rest => do
          let (key, rest) ← text? rest
          match skipBlanks rest with
          | ':' :: rest =>
              let (v, rest) ← value? fuel rest
              let done := setField key v done
              match skipBlanks rest with
              | ',' :: rest => fields? fuel rest done
              | '\x7d' :: rest => some (done, rest)
              | _ => none
          | _ => none
      | _ => none

end

end Reader

/-- The value that a text spells. -/
def ofText? (s : String) : Option Json := do
  let input := s.toList
  let (v, rest) ← Reader.value? (2 * input.length + 2) input
  if (Reader.skipBlanks rest).isEmpty then some v else none

end Json

end Bracket
