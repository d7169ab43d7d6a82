import Bracket.Double.Basic

/-!
# Rounding of natural numbers

A natural number that fits into a 64-bit word is rounded to a finite double: the
rounded significand has at most 53 bits and a carry, and the shift stays far below
the exponent field of infinity.  A natural number up to `2 ^ 53` is not rounded at all:
its significand is exact, and so is the size that is read back from the word.
-/

namespace Bracket

namespace Double

theorem roundQuotient_le (num den : Nat) : roundQuotient num den ≤ num / den + 1 := by
  unfold roundQuotient
  have hparity : num / den % 2 < 2 := Nat.mod_lt _ (by decide)
  dsimp only
  split
  · omega
  · split <;> omega

/-- The significand before rounding fits into 53 bits. -/
theorem quotient_lt (num den : Nat) :
    num / (den * Nat.pow 2 ((num / den).log2 - 52)) < Nat.pow 2 53 := by
  rw [Nat.pow_eq, Nat.pow_eq, ← Nat.div_div_eq_div_mul,
    Nat.div_lt_iff_lt_mul (Nat.two_pow_pos _), ← Nat.pow_add]
  calc
    num / den < 2 ^ ((num / den).log2 + 1) := Nat.lt_log2_self
    _ ≤ 2 ^ (53 + ((num / den).log2 - 52)) := Nat.pow_le_pow_right (by decide) (by omega)

/-- A bound on the size of a ratio bounds its word. -/
theorem nearestWord_le
    {num den : Nat} (k : Nat) (h : num * unit / den < Nat.pow 2 (k + 53)) :
    nearestWord num den ≤ (k + 2) * Nat.pow 2 52 := by
  have hshift : (num * unit / den).log2 - 52 ≤ k := by
    by_cases hzero : num * unit / den = 0
    · simp [hzero]
    · have hlog := (Nat.log2_lt hzero).mpr h
      omega
  have hquotient := quotient_lt (num * unit) den
  have hround := roundQuotient_le (num * unit) (den * Nat.pow 2 ((num * unit / den).log2 - 52))
  calc
    ((num * unit / den).log2 - 52) * Nat.pow 2 52 +
          roundQuotient (num * unit) (den * Nat.pow 2 ((num * unit / den).log2 - 52))
        ≤ k * Nat.pow 2 52 + Nat.pow 2 53 :=
      Nat.add_le_add (Nat.mul_le_mul_right _ hshift) (Nat.le_trans hround hquotient)
    _ = (k + 2) * Nat.pow 2 52 := by
      rw [Nat.pow_eq, Nat.pow_eq]
      omega

theorem word_ofParts
    {word : Nat} (negative : Bool) (h : word < Nat.pow 2 63) :
    (ofParts negative word).word = word := by
  unfold Double.word ofParts
  simp only [Nat.pow_eq, UInt64.toNat_ofNat'] at h ⊢
  cases negative <;> simp <;> omega

/-- The word of a natural number that fits into 64 bits is that of a finite double. -/
theorem nearestWord_lt_infinityWord
    {n : Nat} (h : n < Nat.pow 2 64) : nearestWord n 1 < infinityWord := by
  have hsize : n * unit / 1 < Nat.pow 2 (1074 + 11 + 53) := by
    rw [Nat.div_one]
    unfold unit
    -- The exponent becomes a variable, so that no power of it is evaluated.
    generalize 1074 = e
    calc
      n * Nat.pow 2 e < Nat.pow 2 64 * Nat.pow 2 e :=
        Nat.mul_lt_mul_of_pos_right h (Nat.two_pow_pos e)
      _ = Nat.pow 2 (e + 11 + 53) := by
        rw [Nat.pow_eq, Nat.pow_eq, Nat.pow_eq, ← Nat.pow_add, Nat.add_comm 64 e]
  have hbelow : (1074 + 11 + 2) * Nat.pow 2 52 < infinityWord := by decide
  exact Nat.lt_of_le_of_lt (nearestWord_le (1074 + 11) hsize) hbelow

theorem word_ofNat {n : Nat} (h : n < Nat.pow 2 64) : (ofNat n).word = nearestWord n 1 :=
  word_ofParts false (Nat.lt_trans (nearestWord_lt_infinityWord h) (by decide))

theorem isFinite_ofNat {n : Nat} (h : n < Nat.pow 2 64) : (ofNat n).isFinite = true := by
  rw [isFinite, word_ofNat h, decide_eq_true_iff]
  exact nearestWord_lt_infinityWord h

theorem negative_ofNat {n : Nat} (h : n < Nat.pow 2 64) : (ofNat n).negative = false := by
  have hword : nearestWord n 1 < infinityWord := nearestWord_lt_infinityWord h
  have hbelow : infinityWord < Nat.pow 2 63 := by decide
  have hbits : (ofNat n).bits.toNat = nearestWord n 1 :=
    UInt64.toNat_ofNat_of_lt' (Nat.lt_trans hword (by decide))
  rw [negative, hbits]
  exact decide_eq_false (Nat.not_le_of_lt (Nat.lt_trans hword hbelow))

/-- Only a NaN differs from itself. -/
theorem same_self {d : Double} (h : d.isNaN = false) : d.same d = true := by
  simp [same, h]

theorem same_ofNat {n : Nat} (h : n < Nat.pow 2 64) : (ofNat n).same (ofNat n) = true := by
  have hfinite := isFinite_ofNat h
  rw [isFinite, decide_eq_true_iff] at hfinite
  exact same_self (decide_eq_false (Nat.not_lt_of_lt hfinite))

/-! ## Exact natural numbers -/

theorem roundQuotient_of_eq_mul
    {num den m : Nat} (hden : 0 < den) (h : num = m * den) : roundQuotient num den = m := by
  have hquotient : num / den = m := by rw [h, Nat.mul_div_cancel m hden]
  have hrest : num % den = 0 := by rw [h, Nat.mul_mod_left]
  unfold roundQuotient
  simp only [hquotient, hrest]
  rw [if_pos (by omega)]

/-- A significand of 53 bits and its shift can be read off the word. -/
theorem sizeOfWord_of_significand
    {k m : Nat} (hlow : Nat.pow 2 52 ≤ m) (hhigh : m < Nat.pow 2 53) :
    sizeOfWord (k * Nat.pow 2 52 + m) = m * Nat.pow 2 k := by
  have hshift : shift (k * Nat.pow 2 52 + m) = k := by
    unfold shift
    simp only [Nat.pow_eq] at hlow hhigh ⊢
    omega
  unfold sizeOfWord significand
  rw [hshift, Nat.add_sub_cancel_left]

/-- The first 53 bits of a natural number that has no others. -/
theorem exists_significand
    {n : Nat} (hpos : n ≠ 0) (h : n ≤ Nat.pow 2 53) :
    ∃ m, n * Nat.pow 2 52 = m * Nat.pow 2 n.log2 ∧ Nat.pow 2 52 ≤ m ∧ m < Nat.pow 2 53 := by
  have hlow := Nat.log2_self_le hpos
  have hhigh := Nat.lt_log2_self (n := n)
  by_cases hlog : n.log2 ≤ 52
  · refine ⟨n * 2 ^ (52 - n.log2), ?_, ?_, ?_⟩
    · rw [Nat.pow_eq, Nat.pow_eq, Nat.mul_assoc, ← Nat.pow_add, Nat.sub_add_cancel hlog]
    · calc
        2 ^ 52 = 2 ^ n.log2 * 2 ^ (52 - n.log2) := by
          rw [← Nat.pow_add, Nat.add_sub_cancel' hlog]
        _ ≤ n * 2 ^ (52 - n.log2) := Nat.mul_le_mul_right _ hlow
    · calc
        n * 2 ^ (52 - n.log2) < 2 ^ (n.log2 + 1) * 2 ^ (52 - n.log2) :=
          Nat.mul_lt_mul_of_pos_right hhigh (Nat.two_pow_pos _)
        _ = 2 ^ 53 := by
          rw [← Nat.pow_add, Nat.add_right_comm, Nat.add_sub_cancel' hlog]
  · have hn : n = Nat.pow 2 53 := by
      have hle : 2 ^ 53 ≤ 2 ^ n.log2 := Nat.pow_le_pow_right (by decide) (by omega)
      exact Nat.le_antisymm h (Nat.le_trans hle hlow)
    have hexponent : n.log2 = 53 := by
      rw [hn]
      exact Nat.log2_two_pow
    refine ⟨Nat.pow 2 52, ?_, Nat.le_refl _, by decide⟩
    rw [hexponent, hn, Nat.mul_comm]

theorem log2_mul_two_pow
    {n : Nat} (hpos : n ≠ 0) (e : Nat) : (n * Nat.pow 2 e).log2 = n.log2 + e := by
  have hlow := Nat.log2_self_le hpos
  have hhigh := Nat.lt_log2_self (n := n)
  have hne : n * 2 ^ e ≠ 0 := Nat.mul_ne_zero hpos (Nat.ne_of_gt (Nat.two_pow_pos e))
  rw [Nat.pow_eq, Nat.log2_eq_iff hne]
  constructor
  · rw [Nat.pow_add]
    exact Nat.mul_le_mul_right _ hlow
  · rw [Nat.add_right_comm, Nat.pow_add]
    exact Nat.mul_lt_mul_of_pos_right hhigh (Nat.two_pow_pos e)

/-- Up to `2 ^ 53` natural numbers are not rounded. -/
theorem numerator_ofNat {n : Nat} (h : n ≤ Nat.pow 2 53) : (ofNat n).numerator = n * unit := by
  have hfits : n < Nat.pow 2 64 := Nat.lt_of_le_of_lt h (by decide)
  rw [numerator, word_ofNat hfits]
  by_cases hpos : n = 0
  · subst hpos
    simp only [nearestWord, Nat.zero_mul, Nat.zero_div]
    decide
  · obtain ⟨m, hm, hlow, hhigh⟩ := exists_significand hpos h
    unfold nearestWord unit
    -- The exponent becomes a variable, so that no power of it is evaluated.
    have hexponent : 52 ≤ 1074 := by decide
    generalize 1074 = e at hexponent ⊢
    have hlog : (n * Nat.pow 2 e / 1).log2 - 52 = n.log2 + (e - 52) := by
      rw [Nat.div_one, log2_mul_two_pow hpos, Nat.add_sub_assoc hexponent]
    have hscaled : n * Nat.pow 2 e = m * (1 * Nat.pow 2 (n.log2 + (e - 52))) := by
      calc
        n * Nat.pow 2 e = n * Nat.pow 2 52 * 2 ^ (e - 52) := by
          rw [Nat.mul_assoc, Nat.pow_eq, Nat.pow_eq, ← Nat.pow_add, Nat.add_sub_cancel' hexponent]
        _ = m * (1 * Nat.pow 2 (n.log2 + (e - 52))) := by
          rw [hm, Nat.mul_assoc, Nat.one_mul, Nat.pow_eq, Nat.pow_eq, Nat.pow_add]
    have hround := roundQuotient_of_eq_mul (by rw [Nat.one_mul]; exact Nat.two_pow_pos _) hscaled
    simp only [hlog, hround]
    rw [sizeOfWord_of_significand hlow hhigh, hscaled, Nat.one_mul]

theorem isWhole_ofNat {n : Nat} (h : n ≤ Nat.pow 2 53) : (ofNat n).isWhole = true := by
  have hfinite := isFinite_ofNat (Nat.lt_of_le_of_lt h (by decide))
  rw [isWhole, hfinite, numerator_ofNat h, Nat.mul_mod_left]
  rfl

theorem wholeSize_ofNat {n : Nat} (h : n ≤ Nat.pow 2 53) : (ofNat n).wholeSize = n := by
  have hunit : 0 < unit := by
    unfold unit
    generalize 1074 = e
    exact Nat.two_pow_pos e
  rw [wholeSize, numerator_ofNat h, Nat.mul_div_cancel n hunit]

end Double

end Bracket
