import Bracket.Double.Basic

/-!
# Shortest decimals

The absolute value of a finite double has an exact decimal expansion with 1074
places, since `1 / 2 ^ 1074 = 5 ^ 1074 / 10 ^ 1074`.  All decimals of this
module are whole multiples of `10 ^ (-1074)`, so choosing a short one is a
question about natural numbers only.

A decimal reads back as a word when it lies between the midpoints to the two
neighbouring words, the midpoints included exactly when the word is even.
`shortest` walks from coarse to fine decimal grids and takes the first grid on
which a neighbour of the value reads back, the nearer of the two if both do,
and the larger one in a tie.
-/

namespace Bracket

namespace Double

/-- The number of decimal places that every finite double fits in. -/
def places : Nat := 1074

/-- A word's size as a multiple of `10 ^ (-1074)`. -/
def exactDecimal (word : Nat) : Nat := sizeOfWord word * Nat.pow 5 places

/-- The gap below a word is half the gap above it: the significand is a power
of two and the exponent can still go down. -/
def narrowBelow (word : Nat) : Bool :=
  decide (word % Nat.pow 2 52 = 0 ∧ 1 < word / Nat.pow 2 52)

/-- Half the gap above a word, in quarters of `10 ^ (-1074)`. -/
def halfGapAbove (word : Nat) : Nat := 2 * Nat.pow 2 (shift word) * Nat.pow 5 places

/-- Half the gap below a word, in quarters of `10 ^ (-1074)`. -/
def halfGapBelow (word : Nat) : Nat :=
  if narrowBelow word then Nat.pow 2 (shift word) * Nat.pow 5 places else halfGapAbove word

/-- The multiple `v` of `10 ^ (-1074)` rounds to the word. -/
def readsBack (word v : Nat) : Bool :=
  let low := 4 * exactDecimal word - halfGapBelow word
  let high := 4 * exactDecimal word + halfGapAbove word
  if word % 2 = 0 then decide (low ≤ 4 * v ∧ 4 * v ≤ high)
  else decide (low < 4 * v ∧ 4 * v < high)

/-- Of the two multiples of `grid` around `exact`, the one that reads back as
the word: the nearer one if both do, the upper one in a tie. -/
def neighbourOn (word exact grid : Nat) : Option Nat :=
  let below := exact / grid * grid
  let above := below + grid
  match readsBack word below, readsBack word above with
  | true, true => some (if 2 * exact < below + above then below else above)
  | true, false => some below
  | false, true => some above
  | false, false => none

/-- The shortest decimal that reads back as a word, as a multiple of
`10 ^ (-1074)`.  Grids have from one up to seventeen digits. -/
def shortest (word : Nat) : Nat :=
  let exact := exactDecimal word
  let length := (Nat.toDigits 10 exact).length
  let found := (List.range 17).findSome? fun i =>
    neighbourOn word exact (Nat.pow 10 (length - (i + 1)))
  found.getD exact

end Double

end Bracket
