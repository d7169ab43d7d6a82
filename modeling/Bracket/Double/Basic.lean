/-!
# Binary floating-point words

A `Double` is the 64-bit word of an IEEE 754 binary number.  Every finite value
is a whole multiple of `2 ^ (-1074)`, so its size is held as one natural number,
the `numerator` over that fixed denominator, and nothing in this library
computes with machine floats.

The word of a finite size is an affine function of its significand: with a
shift `k`, the size `m * 2 ^ k` has the word `k * 2 ^ 52 + m`.  Rounding a ratio
to the nearest word (`nearestWord`) uses the same formula, and a carry out of
the significand moves into the exponent field without a special case.
-/

namespace Bracket

/-- The word of an IEEE 754 binary64 number. -/
structure Double where
  bits : UInt64
  deriving DecidableEq, Repr, Inhabited

namespace Double

/-- The least exponent field times `2 ^ 52`: the word of infinity. -/
def infinityWord : Nat := 0x7FF * Nat.pow 2 52

/-- The common denominator of all finite doubles. -/
def unit : Nat := Nat.pow 2 1074

/-- The sign bit. -/
def negative (d : Double) : Bool := decide (Nat.pow 2 63 ≤ d.bits.toNat)

/-- The word without its sign bit. -/
def word (d : Double) : Nat := d.bits.toNat % Nat.pow 2 63

def isNaN (d : Double) : Bool := decide (infinityWord < d.word)

def isInfinite (d : Double) : Bool := decide (d.word = infinityWord)

def isFinite (d : Double) : Bool := decide (d.word < infinityWord)

def isZero (d : Double) : Bool := decide (d.word = 0)

/-- The shift of a word: its exponent field less one, and zero for the words
that have no implicit leading bit. -/
def shift (word : Nat) : Nat := word / Nat.pow 2 52 - 1

/-- The significand of a word, implicit leading bit included. -/
def significand (word : Nat) : Nat := word - shift word * Nat.pow 2 52

/-- The size of a finite word as a multiple of `2 ^ (-1074)`. -/
def sizeOfWord (word : Nat) : Nat := significand word * Nat.pow 2 (shift word)

/-- The absolute value of a finite double is `numerator / unit`. -/
def numerator (d : Double) : Nat := sizeOfWord d.word

/-- The double with a given sign and a word below the sign bit. -/
def ofParts (negative : Bool) (word : Nat) : Double :=
  ⟨UInt64.ofNat (if negative then Nat.pow 2 63 + word else word)⟩

/-! ## Comparison -/

/-- Numerical equality: no NaN equals anything, and the two zeros agree. -/
def same (a b : Double) : Bool :=
  !a.isNaN && !b.isNaN && (decide (a.bits = b.bits) || (a.isZero && b.isZero))

/-! ## Whole values -/

/-- A finite double without a fractional part. -/
def isWhole (d : Double) : Bool :=
  d.isFinite && decide (d.numerator % unit = 0)

/-- The absolute value of a whole double. -/
def wholeSize (d : Double) : Nat := d.numerator / unit

/-! ## Rounding -/

/-- The quotient rounded to the nearest natural number, a half to the even
neighbour. -/
def roundQuotient (num den : Nat) : Nat :=
  let q := num / den
  let r := num % den
  if 2 * r < den then q
  else if den < 2 * r then q + 1
  else q + q % 2

/-- The word nearest to `num / den`, a tie to the even word.  The result is at
least `infinityWord` when the ratio is too large for a finite double. -/
def nearestWord (num den : Nat) : Nat :=
  let scaled := num * unit
  let k := (scaled / den).log2 - 52
  k * Nat.pow 2 52 + roundQuotient scaled (den * Nat.pow 2 k)

/-- The double nearest to a ratio, unless the ratio is too large. -/
def ofRatio? (negative : Bool) (num den : Nat) : Option Double :=
  let word := nearestWord num den
  if word < infinityWord then some (ofParts negative word) else none

/-- The double nearest to a natural number below `2 ^ 64`. -/
def ofNat (n : Nat) : Double := ofParts false (nearestWord n 1)

/-- The double nearest to `mantissa * 10 ^ exponent`.  Exponents far outside
the range of finite doubles are settled by the number of digits alone. -/
def ofDecimal? (negative : Bool) (mantissa : Nat) (exponent : Int) : Option Double :=
  let digits : Int := (Nat.toDigits 10 mantissa).length
  if mantissa = 0 then some (ofParts negative 0)
  else if digits + exponent < -400 then some (ofParts negative 0)
  else if 400 < digits + exponent then none
  else if 0 ≤ exponent then ofRatio? negative (mantissa * Nat.pow 10 exponent.toNat) 1
  else ofRatio? negative mantissa (Nat.pow 10 (-exponent).toNat)

end Double

end Bracket
