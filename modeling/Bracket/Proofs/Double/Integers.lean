import Bracket.Proofs.Double.ReadBack

/-!
# Whole numbers in full

Where the value of a finite double is an integer of moderate size, every format writes this
integer itself: its digits without zeros in front, behind a minus sign if it is negative.  The
double zero with a sign is the integer zero.

The range of Python is that of integers of 64 bits with a sign, but its upper end is given as a
double.  The largest integer of 64 bits is no double, and the bound is the next one above it: it
is the only number of the range that is not written as it is.
-/

namespace Bracket

namespace Double

section Integer

variable {d : Double} {z : ℤ}

/-! ## Doubles whose value is an integer -/

theorem sizeOfWord_of_value (h : d.value = z) : sizeOfWord d.word = z.natAbs * unit := by
  have hunit : (unit : ℚ) ≠ 0 := Nat.cast_ne_zero.mpr (Nat.ne_of_gt unit_pos)
  have hsize : magnitude d.word = z.natAbs := by
    rw [← abs_value, h, Nat.cast_natAbs, Int.cast_abs]
  rw [magnitude, div_eq_iff hunit] at hsize
  exact_mod_cast hsize

theorem value_of_sizeOfWord
    {n : Nat} (h : sizeOfWord d.word = n * unit) : d.value = sign d.negative * n := by
  have hunit : (unit : ℚ) ≠ 0 := Nat.cast_ne_zero.mpr (Nat.ne_of_gt unit_pos)
  rw [value, magnitude, h, Nat.cast_mul, mul_div_cancel_right₀ _ hunit]

theorem isWhole_of_value (hfinite : d.isFinite = true) (h : d.value = z) : d.isWhole = true := by
  rw [isWhole, hfinite, numerator, sizeOfWord_of_value h, Nat.mul_mod_left]
  rfl

theorem wholeSize_of_value (h : d.value = z) : d.wholeSize = z.natAbs := by
  rw [wholeSize, numerator, sizeOfWord_of_value h, Nat.mul_div_cancel _ unit_pos]

theorem nonpos_of_value (h : d.value = z) (hsign : d.negative = true) : z ≤ 0 := by
  have hsize := magnitude_nonneg d.word
  rw [value, hsign, sign, if_pos rfl, neg_one_mul] at h
  have hvalue : (z : ℚ) ≤ 0 := by linarith
  exact_mod_cast hvalue

theorem nonneg_of_value (h : d.value = z) (hsign : d.negative = false) : 0 ≤ z := by
  have hsize := magnitude_nonneg d.word
  rw [value, hsign, sign, if_neg Bool.false_ne_true, one_mul] at h
  rw [h] at hsize
  exact_mod_cast hsize

/-- The sign bit is that of the integer, unless the integer is zero. -/
theorem negative_and_ne_zero (h : d.value = z) : (d.negative && z != 0) = decide (z < 0) := by
  cases hsign : d.negative with
  | false =>
      have hnonneg := nonneg_of_value h hsign
      rw [Bool.false_and, decide_eq_false (by omega)]
  | true =>
      have hnonpos := nonpos_of_value h hsign
      rw [Bool.true_and, Bool.eq_iff_iff, bne_iff_ne, decide_eq_true_iff]
      omega

/-! ## The text of an integer -/

theorem repr_eq_signed (z : ℤ) :
    z.repr = String.ofList (signed (decide (z < 0)) (natDigits z.natAbs)) := by
  rw [← String.toList_inj, String.toList_ofList, natDigits]
  cases z with
  | ofNat n => exact Nat.toList_repr
  | negSucc n =>
      rw [Int.repr, String.toList_append, Nat.toList_repr, decide_eq_true (Int.negSucc_lt_zero n)]
      simp [signed]

/-- A format writes the integer that its range puts in the place of the value. -/
theorem text_eq_repr
    {range : WholeRange} {y : ℤ} (hfinite : d.isFinite = true) (h : d.value = z)
    (hcovers : range.covers z.natAbs = true) (hsize : range.written d.negative z.natAbs = y.natAbs)
    (hsign : y < 0 ↔ z < 0) (hzero : y = 0 ↔ z = 0) : d.text range = y.repr := by
  have hminus : (d.negative && y.natAbs != 0) = decide (y < 0) := by
    rw [decide_eq_decide.mpr hsign, ← negative_and_ne_zero h]
    congr 1
    rw [Bool.eq_iff_iff, bne_iff_ne, bne_iff_ne, Int.natAbs_ne_zero]
    exact not_congr hzero
  rw [text, isWhole_of_value hfinite h, wholeSize_of_value h, hcovers, Bool.and_self, if_pos rfl,
    wholeText, hsize, hminus, ← repr_eq_signed]

theorem text_below_eq_repr
    {bound : Nat} (hfinite : d.isFinite = true) (h : d.value = z) (hbound : z.natAbs < bound) :
    d.text (.below bound) = z.repr :=
  text_eq_repr hfinite h (decide_eq_true hbound) rfl Iff.rfl Iff.rfl

/-- The upper end of the range of 64-bit integers is cut, and all else is kept. -/
theorem text_signed64_eq_repr
    (hfinite : d.isFinite = true) (h : d.value = z) (hlow : -2 ^ 63 ≤ z) (hhigh : z ≤ 2 ^ 63) :
    d.text .signed64 = (min z (2 ^ 63 - 1)).repr := by
  have hcovers : WholeRange.signed64.covers z.natAbs = true := by
    rw [WholeRange.covers, decide_eq_true_iff, show Nat.pow 2 63 = 9223372036854775808 from rfl]
    omega
  refine text_eq_repr hfinite h hcovers ?_ (by omega) (by omega)
  rw [WholeRange.written, show Nat.pow 2 63 = 9223372036854775808 from rfl]
  cases hsign : d.negative with
  | false =>
      have hnonneg := nonneg_of_value h hsign
      rw [if_neg Bool.false_ne_true]
      omega
  | true =>
      have hnonpos := nonpos_of_value h hsign
      rw [if_pos rfl]
      omega

/-- A double whose value is an integer in the range of a format is written as this integer.  In
Python, the upper end of the range is the one exception. -/
theorem literal_eq_repr
    (hfinite : d.isFinite = true) (h : d.value = z) :
    (|z| < 10 ^ 15 →
      TypeScript.literal (.number d) = z.repr ∧ Lua.literal (.number d) = z.repr) ∧
    (-2 ^ 63 ≤ z → z ≤ 2 ^ 63 →
      Python.literal (.number d) = (min z (2 ^ 63 - 1)).repr ∧
      (Python.literal (.number d) = z.repr ↔ z ≠ 2 ^ 63)) := by
  refine ⟨fun hbound => ?_, fun hlow hhigh => ?_⟩
  · have hsize : z.natAbs < Nat.pow 10 15 := by
      rw [Int.abs_eq_natAbs] at hbound
      exact_mod_cast hbound
    exact ⟨text_below_eq_repr hfinite h hsize, text_below_eq_repr hfinite h hsize⟩
  · have htext : Python.literal (.number d) = (min z (2 ^ 63 - 1)).repr :=
      text_signed64_eq_repr hfinite h hlow hhigh
    refine ⟨htext, fun hexact hlast => ?_, fun hless => ?_⟩
    · rw [htext, hlast] at hexact
      exact absurd hexact (by decide)
    · rw [htext, min_eq_left (by omega)]

end Integer

/-- The least integer that is written in full in all three formats. -/
theorem literal_eq_repr_least :
    (⟨0xC30C6BF52633FFF8⟩ : Double).value = (-999999999999999 : ℤ) ∧
      TypeScript.literal (.number ⟨0xC30C6BF52633FFF8⟩) = "-999999999999999" ∧
      Lua.literal (.number ⟨0xC30C6BF52633FFF8⟩) = "-999999999999999" ∧
      Python.literal (.number ⟨0xC30C6BF52633FFF8⟩) = "-999999999999999" := by
  have hvalue : (⟨0xC30C6BF52633FFF8⟩ : Double).value = (-999999999999999 : ℤ) := by
    rw [value_of_sizeOfWord (n := 999999999999999) (by decide +kernel), sign, if_pos (by decide)]
    norm_num
  obtain ⟨hdecimal, hbinary⟩ := literal_eq_repr (by decide) hvalue
  obtain ⟨htypescript, hlua⟩ := hdecimal (by decide)
  exact ⟨hvalue, htypescript.trans (by decide), hlua.trans (by decide),
    (hbinary (by decide) (by decide)).1.trans (by decide)⟩

/-- The upper end of the range of 64-bit integers is not written as it is. -/
theorem literal_ne_repr_of_last :
    (⟨0x43E0000000000000⟩ : Double).isFinite = true ∧
      (⟨0x43E0000000000000⟩ : Double).value = (2 ^ 63 : ℤ) ∧
      Python.literal (.number ⟨0x43E0000000000000⟩) = "9223372036854775807" ∧
      Python.literal (.number ⟨0x43E0000000000000⟩) ≠ (2 ^ 63 : ℤ).repr := by
  refine ⟨by decide, ?_, by decide +kernel, by decide +kernel⟩
  rw [value_of_sizeOfWord (n := 9223372036854775808) (by decide +kernel), sign,
    if_neg (by decide)]
  norm_num

end Double

end Bracket
