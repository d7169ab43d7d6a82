import Mathlib.Algebra.Order.Field.Rat
import Mathlib.Tactic.FieldSimp
import Mathlib.Tactic.Linarith
import Bracket.Proofs.Double.Decimals
import Bracket.Proofs.Double.Numerals
import Bracket.Target.Lua
import Bracket.Target.Python
import Bracket.Target.TypeScript

/-!
# Printed numbers read back

The text of a number stands for a rational number.  For every finite double this rational number
is rounded to the double again: no other double is nearer, and if another one is equally near,
the word of the double is even.  Each output format chooses between all digits and the shortest
decimal in its own way, and the result holds for all three.

The sign of zero is the one thing that a text may lose.
-/

namespace Bracket

/-- The factor of a sign. -/
def sign (negative : Bool) : ℚ := if negative then -1 else 1

/-- The rational number that a numeral stands for. -/
def Numeral.value (n : Numeral) : ℚ := sign n.negative * (n.mantissa * 10 ^ n.exponent)

namespace Double

/-- The size of a word as a rational number. -/
def magnitude (word : Nat) : ℚ := sizeOfWord word / unit

/-- The rational number that a finite double stands for. -/
def value (d : Double) : ℚ := sign d.negative * magnitude d.word

/-- Rounding to the nearest double, a tie to the even word.  What lies half a gap or more above
the largest finite double is not rounded to a finite one. -/
structure RoundsTo (x : ℚ) (d : Double) : Prop where
  finite : d.isFinite = true
  bounded : 2 * |x| < magnitude (infinityWord - 1) + magnitude infinityWord
  nearest : ∀ d' : Double, d'.isFinite = true → |x - d.value| ≤ |x - d'.value|
  even : ∀ d' : Double, d'.isFinite = true → |x - d.value| = |x - d'.value| →
    d'.value = d.value ∨ d.word % 2 = 0

/-- The whole text is a numeral.  Its rational number is rounded to the double, and reading the
numeral gives the double up to the sign of zero. -/
def ReadsBack (text : String) (d : Double) : Prop :=
  ∃ n d', Json.Reader.numeral? text.toList = some (n, []) ∧ RoundsTo n.value d ∧
    n.toDouble? = some d' ∧ d'.same d = true

/-! ## Midpoints of magnitudes -/

theorem magnitude_nonneg (word : Nat) : 0 ≤ magnitude word :=
  div_nonneg (Nat.cast_nonneg _) (Nat.cast_nonneg _)

theorem magnitude_lt {a b : Nat} (h : a < b) : magnitude a < magnitude b :=
  div_lt_div_of_pos_right (Nat.cast_lt.mpr (sizeOfWord_lt h)) (Nat.cast_pos.mpr unit_pos)

theorem magnitude_le {a b : Nat} (h : a ≤ b) : magnitude a ≤ magnitude b := by
  rcases Nat.lt_or_eq_of_le h with hlt | rfl
  · exact le_of_lt (magnitude_lt hlt)
  · exact le_refl _

theorem magnitude_eq_zero {word : Nat} : magnitude word = 0 ↔ word = 0 := by
  have hunit : (unit : ℚ) ≠ 0 := Nat.cast_ne_zero.mpr (Nat.ne_of_gt unit_pos)
  rw [magnitude, div_eq_zero_iff, or_iff_left hunit, Nat.cast_eq_zero, sizeOfWord_eq_zero_iff]

section Ratios

variable {num den u : Nat} (hden : 0 < den) (hu : 0 < u) (a b : Nat)

include hden hu

theorem midpoint_le_iff :
    (a / u + b / u : ℚ) ≤ 2 * (num / den) ↔ (a + b) * den ≤ 2 * (num * u) := by
  rw [← add_div, ← mul_div_assoc, div_le_div_iff₀ (Nat.cast_pos.mpr hu) (Nat.cast_pos.mpr hden),
    mul_assoc 2 (num : ℚ)]
  norm_cast

theorem le_midpoint_iff :
    2 * (num / den : ℚ) ≤ a / u + b / u ↔ 2 * (num * u) ≤ (a + b) * den := by
  rw [← add_div, ← mul_div_assoc, div_le_div_iff₀ (Nat.cast_pos.mpr hden) (Nat.cast_pos.mpr hu),
    mul_assoc 2 (num : ℚ)]
  norm_cast

end Ratios

namespace Between

variable {num den word : Nat}

/-- The midpoints around a word as rational numbers. -/
theorem midpoints
    (hden : 0 < den) (h : Between num den word) :
    magnitude (word - 1) + magnitude word ≤ 2 * (num / den : ℚ) ∧
      2 * (num / den : ℚ) ≤ magnitude word + magnitude (word + 1) ∧
      (word % 2 = 1 → magnitude (word - 1) + magnitude word < 2 * (num / den : ℚ) ∧
        2 * (num / den : ℚ) < magnitude word + magnitude (word + 1)) := by
  refine ⟨(midpoint_le_iff hden unit_pos _ _).mpr h.low,
    (le_midpoint_iff hden unit_pos _ _).mpr h.high, fun hodd => ?_⟩
  unfold magnitude
  rw [← not_le, ← not_le, le_midpoint_iff hden unit_pos, midpoint_le_iff hden unit_pos, not_le,
    not_le]
  exact h.inner hodd

/-- No other word is nearer, and none is equally near to an odd word. -/
theorem dist_le
    (hden : 0 < den) (h : Between num den word) {other : Nat} (hother : other ≠ word) :
    |(num / den : ℚ) - magnitude word| ≤ |(num / den : ℚ) - magnitude other| ∧
      (word % 2 = 1 →
        |(num / den : ℚ) - magnitude word| < |(num / den : ℚ) - magnitude other|) := by
  obtain ⟨hlow, hhigh, hinner⟩ := h.midpoints hden
  have hbelow : magnitude (word - 1) ≤ magnitude word := magnitude_le (Nat.sub_le word 1)
  have habove : magnitude word ≤ magnitude (word + 1) := magnitude_le (Nat.le_succ word)
  generalize (num / den : ℚ) = x at hlow hhigh hinner ⊢
  rcases Nat.lt_or_gt_of_ne hother with hlt | hgt
  · have hless : magnitude other ≤ magnitude (word - 1) := magnitude_le (by omega)
    have hdist : x - magnitude other ≤ |x - magnitude other| := le_abs_self _
    refine ⟨abs_le.mpr ⟨by linarith, by linarith⟩, fun hodd => ?_⟩
    have hstrict := (hinner hodd).1
    have hgap : magnitude (word - 1) < magnitude word := magnitude_lt (by omega)
    exact abs_lt.mpr ⟨by linarith, by linarith⟩
  · have hless : magnitude (word + 1) ≤ magnitude other := magnitude_le hgt
    have hdist : -(x - magnitude other) ≤ |x - magnitude other| := neg_le_abs _
    refine ⟨abs_le.mpr ⟨by linarith, by linarith⟩, fun hodd => ?_⟩
    have hstrict := (hinner hodd).2
    have hgap : magnitude word < magnitude (word + 1) := magnitude_lt (Nat.lt_succ_self word)
    exact abs_lt.mpr ⟨by linarith, by linarith⟩

/-- Below the largest midpoint every ratio is rounded to a finite word. -/
theorem lt_overflow
    (hden : 0 < den) (h : Between num den word) (hfinite : word < infinityWord) :
    2 * (num / den : ℚ) < magnitude (infinityWord - 1) + magnitude infinityWord := by
  obtain ⟨-, hhigh, hinner⟩ := h.midpoints hden
  by_cases hlast : word = infinityWord - 1
  · subst hlast
    exact (hinner (by decide)).2
  · have hword : magnitude word < magnitude (infinityWord - 1) := magnitude_lt (by omega)
    have hnext : magnitude (word + 1) ≤ magnitude infinityWord := magnitude_le hfinite
    linarith

end Between

/-! ## Rounding with a sign -/

theorem abs_sign_mul (negative : Bool) (x : ℚ) : |sign negative * x| = |x| := by
  cases negative <;> simp [sign]

theorem abs_value (d : Double) : |d.value| = magnitude d.word := by
  rw [value, abs_sign_mul, abs_of_nonneg (magnitude_nonneg _)]

/-- The sign of zero does not matter. -/
theorem value_eq
    {d : Double} {negative : Bool} (h : d.word ≠ 0 → negative = d.negative) :
    d.value = sign negative * magnitude d.word := by
  by_cases hzero : d.word = 0
  · rw [value, magnitude_eq_zero.mpr hzero, mul_zero, mul_zero]
  · rw [value, h hzero]

/-- A positive ratio is nearer to a positive number than to its opposite. -/
theorem Between.dist_lt_opposite
    {num den : Nat} {negative : Bool} {d : Double} (hden : 0 < den)
    (h : Between num den d.word) (hzero : d.word ≠ 0) (hsign : d.negative = !negative) :
    |(num / den : ℚ) - magnitude d.word| < |sign negative * (num / den : ℚ) - d.value| := by
  have hvalue : d.value = sign negative * -magnitude d.word := by
    rw [value, hsign]
    cases negative <;> simp [sign]
  have hword : 0 < magnitude d.word :=
    lt_of_le_of_ne (magnitude_nonneg _) (Ne.symm (mt magnitude_eq_zero.mp hzero))
  have hlow := (h.midpoints hden).1
  have hbelow := magnitude_nonneg (d.word - 1)
  rw [hvalue, ← mul_sub, abs_sign_mul, sub_neg_eq_add]
  exact lt_of_lt_of_le (abs_lt.mpr ⟨by linarith, by linarith⟩) (le_abs_self _)

/-- A ratio between the midpoints around a double is rounded to the double. -/
theorem Between.roundsTo
    {num den : Nat} {negative : Bool} {d : Double} (hden : 0 < den) (hfinite : d.isFinite = true)
    (hsign : d.word ≠ 0 → negative = d.negative) (h : Between num den d.word) :
    RoundsTo (sign negative * (num / den)) d := by
  have hratio : (0 : ℚ) ≤ num / den := div_nonneg (Nat.cast_nonneg _) (Nat.cast_nonneg _)
  have hdist : |sign negative * (num / den : ℚ) - d.value| =
      |(num / den : ℚ) - magnitude d.word| := by
    rw [value_eq hsign, ← mul_sub, abs_sign_mul]
  -- Without signs, numbers only come nearer to each other.
  have hothers (d' : Double) : |(num / den : ℚ) - magnitude d'.word| ≤
      |sign negative * (num / den : ℚ) - d'.value| := by
    have hsizes := abs_abs_sub_abs_le (sign negative * (num / den : ℚ)) d'.value
    rwa [abs_sign_mul, abs_of_nonneg hratio, abs_value] at hsizes
  have hword : d.word < infinityWord := of_decide_eq_true hfinite
  refine ⟨hfinite, ?_, fun d' _ => ?_, fun d' _ htie => ?_⟩
  · rw [abs_sign_mul, abs_of_nonneg hratio]
    exact h.lt_overflow hden hword
  · rw [hdist]
    refine le_trans ?_ (hothers d')
    by_cases hsame : d'.word = d.word
    · rw [hsame]
    · exact (h.dist_le hden hsame).1
  · by_cases hsame : d'.word = d.word
    · by_cases hzero : d.word = 0
      · refine .inl (abs_eq_zero.mp ?_ |>.trans (abs_eq_zero.mp ?_).symm)
        · rw [abs_value, hsame, magnitude_eq_zero.mpr hzero]
        · rw [abs_value, magnitude_eq_zero.mpr hzero]
      · by_cases hnegative : d'.negative = negative
        · refine .inl ?_
          rw [value, hnegative, hsame, value_eq hsign]
        · have hopposite := Between.dist_lt_opposite hden (hsame.symm ▸ h) (hsame.symm ▸ hzero)
            (Bool.eq_not_of_ne hnegative)
          rw [hsame, ← htie, hdist] at hopposite
          exact absurd hopposite (lt_irrefl _)
    · refine .inr (Nat.mod_two_ne_one.mp fun hodd => ?_)
      have hstrict := (h.dist_le hden hsame).2 hodd
      have := hothers d'
      rw [← htie, hdist] at this
      linarith

/-! ## Reading the text of a number -/

theorem ofParts_parts (d : Double) : ofParts d.negative d.word = d := by
  obtain ⟨bits⟩ := d
  have hbits : bits.toNat < 2 ^ 64 := bits.toNat_lt
  unfold ofParts negative word
  rw [Double.mk.injEq, ← UInt64.toNat_inj, UInt64.toNat_ofNat']
  simp only [Nat.pow_eq, decide_eq_true_eq] at hbits ⊢
  split <;> omega

/-- The sign of zero is lost, and nothing else. -/
theorem same_ofParts
    {negative : Bool} {d : Double} (hfinite : d.isFinite = true)
    (hsign : d.word ≠ 0 → negative = d.negative) : (ofParts negative d.word).same d = true := by
  have hword : d.word < infinityWord := of_decide_eq_true hfinite
  have hparts := word_ofParts negative (Nat.lt_trans hword (by decide))
  have hnumber : d.isNaN = false := decide_eq_false (Nat.lt_asymm hword)
  rw [same, isNaN, hparts, ← isNaN, hnumber]
  by_cases hzero : d.word = 0
  · simp only [isZero, hparts]
    simp [hzero]
  · simp [hsign hzero, ofParts_parts]

theorem value_positional
    (negative : Bool) (m p : Nat) (whole : Bool) :
    Numeral.value ⟨negative, m, -p, whole⟩ = sign negative * (m / (Nat.pow 10 p : Nat)) := by
  rw [Numeral.value, zpow_neg, zpow_natCast, div_eq_mul_inv, Nat.pow_eq, Nat.cast_pow]
  rfl

/-- A sign and digits around the word of a double read back as the double. -/
theorem readsBack_of_between
    {negative : Bool} {n : Nat} {fraction : List Char} {text : String} {d : Double}
    (hfinite : d.isFinite = true) (hsign : d.word ≠ 0 → negative = d.negative)
    (htext : text.toList = signed negative (natDigits n ++ pointed fraction))
    (hfraction : ∀ c ∈ fraction, c.isDigit = true)
    (h : Between (Json.Reader.digitsValue (natDigits n ++ fraction))
      (Nat.pow 10 fraction.length) d.word) :
    ReadsBack text d := by
  have hpow : 0 < Nat.pow 10 fraction.length := Nat.pow_pos (by decide)
  have hdouble : Numeral.toDouble? ⟨negative, Json.Reader.digitsValue (natDigits n ++ fraction),
      -fraction.length, fraction.isEmpty⟩ = some (ofParts negative d.word) :=
    h.ofDecimal?_eq (of_decide_eq_true hfinite)
  have hhead : ∀ c ∈ (natDigits n ++ pointed fraction).head?, c ≠ '-' := by
    intro c hc hminus
    have hdigits : natDigits n ≠ [] := Nat.toDigits_ne_nil
    rw [List.head?_append_of_ne_nil _ hdigits] at hc
    have hdigit := isDigit_natDigits n c (List.mem_of_mem_head? hc)
    rw [hminus] at hdigit
    exact absurd hdigit (by decide)
  refine ⟨_, _, ?_, ?_, hdouble, same_ofParts hfinite hsign⟩
  · rw [htext]
    exact numeral?_signed hhead (wholePart?_natDigits n (not_isDigit_pointed fraction))
      (fractionPart?_pointed hfraction) (by rw [hdouble]; rfl)
  · rw [value_positional]
    exact h.roundsTo hpow hfinite hsign

/-- A whole number lies at its own word. -/
theorem between_of_eq {num word : Nat} (h : sizeOfWord word = num * unit) : Between num 1 word := by
  have hbelow : sizeOfWord (word - 1) ≤ sizeOfWord word := sizeOfWord_le (Nat.sub_le word 1)
  have habove : sizeOfWord word < sizeOfWord (word + 1) := sizeOfWord_lt (Nat.lt_succ_self word)
  rw [h] at hbelow habove
  refine ⟨?_, ?_, fun hodd => ?_⟩
  · omega
  · omega
  · have hstrict : sizeOfWord (word - 1) < sizeOfWord word := sizeOfWord_lt (by omega)
    omega

/-- The size that is written for a whole number is rounded to the number.  The one that is cut is
so large that its neighbours are far away. -/
theorem between_written
    {range : WholeRange} {d : Double} (hwhole : d.isWhole = true)
    (hcovers : range.covers d.wholeSize = true) :
    Between (range.written d.negative d.wholeSize) 1 d.word := by
  have hsize : sizeOfWord d.word = d.wholeSize * unit := by
    rw [isWhole, Bool.and_eq_true, decide_eq_true_iff] at hwhole
    exact (Nat.div_mul_cancel (Nat.dvd_of_mod_eq_zero hwhole.2)).symm
  have hexact : Between d.wholeSize 1 d.word := between_of_eq hsize
  cases range with
  | below bound => exact hexact
  | signed64 =>
      rw [WholeRange.written]
      rw [WholeRange.covers, decide_eq_true_iff] at hcovers
      split
      · exact hexact
      · by_cases hlast : d.wholeSize = Nat.pow 2 63
        · have hword : d.word = 0x43E0000000000000 := by
            rw [← sizeOfWord_inj, hsize, hlast]
            decide +kernel
          rw [hlast, hword]
          exact ⟨by decide +kernel, by decide +kernel, fun hodd => absurd hodd (by decide)⟩
        · rw [Nat.min_eq_left (by omega)]
          exact hexact

/-- The text of a finite double in any format reads back. -/
theorem readsBack_text
    (range : WholeRange) {d : Double} (hfinite : d.isFinite = true) :
    ReadsBack (d.text range) d := by
  have hword : d.word < infinityWord := of_decide_eq_true hfinite
  have hnumber : d.isNaN = false := decide_eq_false (Nat.lt_asymm hword)
  unfold text
  split
  · rename_i hwhole
    rw [Bool.and_eq_true] at hwhole
    have hbetween := between_written hwhole.1 hwhole.2
    rw [wholeText, negative_and_written range hwhole.1]
    generalize range.written d.negative d.wholeSize = size at hbetween ⊢
    have hsign (hzero : d.word ≠ 0) : d.isNegative = d.negative := by
      simp [isNegative, isZero, hzero, hnumber]
    have htext : (String.ofList (signed d.isNegative (natDigits size))).toList =
        signed d.isNegative (natDigits size ++ pointed []) := by
      rw [String.toList_ofList, pointed, List.append_nil]
    refine readsBack_of_between hfinite hsign htext (fun _ hc => absurd hc List.not_mem_nil) ?_
    rw [List.append_nil, digitsValue_natDigits]
    exact hbetween
  · have hinfinite : d.isInfinite = false := decide_eq_false (Nat.ne_of_lt hword)
    have hbetween := (readsBack_iff_between _ _).mp (readsBack_shortest d.word)
    obtain ⟨n, fraction, hpositional, hdigits, hvalue⟩ := positional_parts (shortest d.word)
    have htext : d.shortestText.toList = signed d.negative (natDigits n ++ pointed fraction) := by
      rw [shortestText, hnumber, hinfinite, hpositional]
      exact String.toList_ofList
    have hplaces : 0 < Nat.pow 10 places := by
      generalize places = e
      exact Nat.pow_pos (by decide)
    exact readsBack_of_between hfinite (fun _ => rfl) htext hdigits
      (hbetween.congr hplaces (Nat.pow_pos (by decide)) hvalue.symm)

/-- Numbers that are printed in any of the three formats read back. -/
theorem readsBack_literal
    {d : Double} (hfinite : d.isFinite = true) :
    ReadsBack (Python.literal (.number d)) d ∧ ReadsBack (TypeScript.literal (.number d)) d ∧
      ReadsBack (Lua.literal (.number d)) d :=
  ⟨readsBack_text _ hfinite, readsBack_text _ hfinite, readsBack_text _ hfinite⟩

/-- The largest whole number that is cut to 64 bits with a sign. -/
theorem readsBack_literal_cut :
    (⟨0x43E0000000000000⟩ : Double).isFinite = true ∧
      ReadsBack (Python.literal (.number ⟨0x43E0000000000000⟩)) ⟨0x43E0000000000000⟩ ∧
      ReadsBack (TypeScript.literal (.number ⟨0x43E0000000000000⟩)) ⟨0x43E0000000000000⟩ ∧
      ReadsBack (Lua.literal (.number ⟨0x43E0000000000000⟩)) ⟨0x43E0000000000000⟩ :=
  ⟨by decide, readsBack_literal (by decide)⟩

end Double

end Bracket
