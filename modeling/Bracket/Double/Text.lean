import Bracket.Double.Shortest

/-!
# The text of a number

A number is written positionally, never with an exponent.  Whole numbers of
moderate size are written exactly; each output format says how far that goes by
a `WholeRange`.  Every other finite number is written as its shortest decimal.
-/

namespace Bracket

namespace Double

/-- Decimal digits of a natural number. -/
def natDigits (n : Nat) : List Char := Nat.toDigits 10 n

/-- The last `width` digits of `n`, with zeros in front. -/
def paddedDigits (width n : Nat) : List Char :=
  let digits := natDigits n
  List.replicate (width - digits.length) '0' ++ digits

/-- Drop the zeros at the end of a list of digits. -/
def dropTrailingZeros (digits : List Char) : List Char :=
  (digits.reverse.dropWhile (· == '0')).reverse

/-- Positional text of a multiple of `10 ^ (-1074)`, without trailing zeros. -/
def positional (v : Nat) : List Char :=
  let whole := natDigits (v / Nat.pow 10 places)
  let fraction := v % Nat.pow 10 places
  if fraction = 0 then whole
  else whole ++ '.' :: dropTrailingZeros (paddedDigits places fraction)

/-- Text of a signed quantity. -/
def signed (negative : Bool) (text : List Char) : List Char :=
  if negative then '-' :: text else text

/-- The shortest positional decimal of a double, or the name of its special
value. -/
def shortestText (d : Double) : String :=
  if d.isNaN then "NaN"
  else if d.isInfinite then String.ofList (signed d.negative ['i', 'n', 'f'])
  else String.ofList (signed d.negative (positional (shortest d.word)))

/-- The whole numbers that a format writes with all their digits. -/
inductive WholeRange where
  /-- Sizes below `bound`. -/
  | below (bound : Nat)
  /-- The values from `-2 ^ 63` to `2 ^ 63`, the last one cut to `2 ^ 63 - 1`. -/
  | signed64
  deriving DecidableEq, Repr

namespace WholeRange

/-- The range covers whole numbers of this size. -/
def covers (range : WholeRange) (size : Nat) : Bool :=
  match range with
  | .below bound => decide (size < bound)
  | .signed64 => decide (size ≤ Nat.pow 2 63)

/-- The size that is written for a covered whole number. -/
def written (range : WholeRange) (negative : Bool) (size : Nat) : Nat :=
  match range with
  | .below _ => size
  | .signed64 => if negative then size else min size (Nat.pow 2 63 - 1)

end WholeRange

/-- Text of a whole number; zero has no sign. -/
def wholeText (negative : Bool) (size : Nat) : String :=
  String.ofList (signed (negative && size != 0) (natDigits size))

/-- Text of a number in a format that writes the whole numbers of `range`
exactly. -/
def text (range : WholeRange) (d : Double) : String :=
  if d.isWhole && range.covers d.wholeSize then
    wholeText d.negative (range.written d.negative d.wholeSize)
  else shortestText d

end Double

end Bracket
