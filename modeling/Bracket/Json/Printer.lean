import Bracket.Json.Basic

/-!
# Writing JSON text

Values are written without blanks.  Quotes, backslashes and control characters
are escaped and all other characters stand for themselves.
-/

namespace Bracket

namespace Json

namespace Printer

def hexDigit (n : Nat) : Char := (Nat.digitChar (n % 16))

/-- The written form of one character of a string. -/
def escapeChar (c : Char) : List Char :=
  match c with
  | '"' => ['\\', '"']
  | '\\' => ['\\', '\\']
  | '\x08' => ['\\', 'b']
  | '\x0c' => ['\\', 'f']
  | '\n' => ['\\', 'n']
  | '\r' => ['\\', 'r']
  | '\t' => ['\\', 't']
  | c =>
      if c.toNat < 0x20 then
        ['\\', 'u', '0', '0', hexDigit (c.toNat / 16), hexDigit c.toNat]
      else [c]

def text (s : String) : String :=
  String.ofList ('"' :: s.toList.flatMap escapeChar ++ ['"'])

def numeral (n : Numeral) : String :=
  let sign := if n.negative then "-" else ""
  let digits := String.ofList (Nat.toDigits 10 n.mantissa)
  if n.whole then sign ++ digits else sign ++ digits ++ "e" ++ n.exponent.repr

end Printer

mutual

/-- The text of a value. -/
def print : Json → String
  | .null => "null"
  | .bool true => "true"
  | .bool false => "false"
  | .number n => Printer.numeral n
  | .string s => Printer.text s
  | .array vs => "[" ++ ",".intercalate (printList vs) ++ "]"
  | .object fs => "\x7b" ++ ",".intercalate (printFields fs) ++ "\x7d"

def printList : List Json → List String
  | [] => []
  | v :: vs => print v :: printList vs

def printFields : List (String × Json) → List String
  | [] => []
  | (k, v) :: fs => (Printer.text k ++ ":" ++ print v) :: printFields fs

end

end Json

end Bracket
