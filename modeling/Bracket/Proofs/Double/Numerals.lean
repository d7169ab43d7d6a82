import Bracket.Proofs.Target.Phrases

/-!
# Numerals

The text of a number is a minus sign, if the number is negative, and a row of letters, digits
and points.  Zero and the values that are no numbers have no sign in their text.
-/

namespace Bracket

namespace Double

/-- The number is less than zero. -/
def isNegative (d : Double) : Bool := d.negative && !d.isZero && !d.isNaN

/-- A character of a numeral behind its sign. -/
def isNumeral (c : Char) : Bool := c.isAlphanum || c == '.'

/-! ## The characters of numerals -/

theorem isNumeral_of_mem_natDigits
    {n : Nat} {c : Char} (h : c ∈ natDigits n) : isNumeral c = true := by
  have hdigit : c.isDigit = true := Nat.isDigit_of_mem_toDigits (by decide) (by decide) h
  simp [isNumeral, Char.isAlphanum, hdigit]

theorem isNumeral_of_mem_positional
    {v : Nat} {c : Char} (h : c ∈ positional v) : isNumeral c = true := by
  have hpadded {width n : Nat} (h : c ∈ paddedDigits width n) : isNumeral c = true := by
    rcases List.mem_append.mp h with h | h
    · rw [List.eq_of_mem_replicate h]
      decide
    · exact isNumeral_of_mem_natDigits h
  unfold positional at h
  dsimp only at h
  split at h
  · exact isNumeral_of_mem_natDigits h
  · rcases List.mem_append.mp h with h | h
    · exact isNumeral_of_mem_natDigits h
    · rcases List.mem_cons.mp h with rfl | h
      · decide
      · exact hpadded (mem_of_mem_dropTrailingZeros h)

theorem positional_ne_nil (v : Nat) : positional v ≠ [] := by
  obtain ⟨tail, hpositional, -⟩ := positional_eq v
  rw [hpositional]
  exact List.append_ne_nil_of_left_ne_nil Nat.toDigits_ne_nil _

/-! ## The sign of a numeral -/

theorem sizeOfWord_eq_zero_iff (word : Nat) : sizeOfWord word = 0 ↔ word = 0 := by
  have hpow (n : Nat) : Nat.pow 2 n ≠ 0 := Nat.ne_of_gt (Nat.pow_pos (by decide))
  have hsignificand : significand word = 0 ↔ word = 0 := by
    have hshift : word / Nat.pow 2 52 * Nat.pow 2 52 ≤ word := Nat.div_mul_le_self _ _
    unfold significand shift
    rw [show Nat.pow 2 52 = 4503599627370496 from rfl] at hshift ⊢
    omega
  rw [sizeOfWord, Nat.mul_eq_zero, hsignificand]
  exact or_iff_left (hpow _)

/-- A whole number has the size zero only if it is zero. -/
theorem wholeSize_eq_zero_iff
    {d : Double} (h : d.isWhole = true) : d.wholeSize = 0 ↔ d.isZero = true := by
  rw [isWhole, Bool.and_eq_true] at h
  have hwhole : d.numerator % unit = 0 := of_decide_eq_true h.2
  have hsize : d.numerator = 0 ↔ d.isZero = true := by
    rw [numerator, sizeOfWord_eq_zero_iff, isZero, decide_eq_true_iff]
  rw [← hsize, wholeSize]
  constructor
  · intro hquotient
    rw [← Nat.div_add_mod d.numerator unit, hquotient, hwhole, Nat.mul_zero]
  · intro hnumerator
    rw [hnumerator, Nat.zero_div]

theorem isWhole_of_isZero {d : Double} (h : d.isZero = true) : d.isWhole = true := by
  have hword : d.word = 0 := of_decide_eq_true h
  have hfinite : d.isFinite = true := by
    rw [isFinite, hword]
    decide
  rw [isWhole, hfinite, numerator, hword, (sizeOfWord_eq_zero_iff 0).mpr rfl, Nat.zero_mod]
  rfl

/-- Only a negative number has a sign when it is written as a whole number. -/
theorem negative_and_written
    (range : WholeRange) {d : Double} (h : d.isWhole = true) :
    (d.negative && range.written d.negative d.wholeSize != 0) = d.isNegative := by
  have hnumber : d.isNaN = false := by
    rw [isWhole, Bool.and_eq_true, isFinite, decide_eq_true_iff] at h
    rw [isNaN, decide_eq_false_iff_not]
    exact Nat.lt_asymm h.1
  cases hsign : d.negative with
  | false => simp [isNegative, hsign]
  | true =>
      have hwritten : range.written true d.wholeSize = d.wholeSize := by
        cases range with
        | below bound => rfl
        | signed64 => rw [WholeRange.written, if_pos rfl]
      have hsize : (d.wholeSize != 0) = !d.isZero := by
        rw [Bool.eq_iff_iff, bne_iff_ne, Bool.not_eq_true', ← Bool.not_eq_true]
        exact not_congr (wholeSize_eq_zero_iff h)
      simp [isNegative, hsign, hwritten, hsize, hnumber]

/-- Zero is written as a whole number. -/
theorem isZero_eq_false
    {range : WholeRange} {d : Double} (hzero : range.covers 0 = true)
    (h : ¬(d.isWhole && range.covers d.wholeSize) = true) : d.isZero = false := by
  rw [← Bool.not_eq_true]
  intro hd
  have hsize := (wholeSize_eq_zero_iff (isWhole_of_isZero hd)).mpr hd
  exact h (by rw [isWhole_of_isZero hd, hsize, hzero]; rfl)

/-- The parts of a numeral. -/
theorem toList_text
    (range : WholeRange) (hzero : range.covers 0 = true) (d : Double) :
    ∃ body, (d.text range).toList = signed d.isNegative body ∧ body ≠ [] ∧
      ∀ c ∈ body, isNumeral c = true := by
  unfold text
  split
  · rename_i hwhole
    rw [Bool.and_eq_true] at hwhole
    rw [wholeText, negative_and_written range hwhole.1]
    exact ⟨_, String.toList_ofList, Nat.toDigits_ne_nil, fun c => isNumeral_of_mem_natDigits⟩
  · rename_i hwhole
    have hnonzero := isZero_eq_false hzero hwhole
    unfold shortestText
    split
    · rename_i hnan
      rw [isNegative, hnan, Bool.not_true, Bool.and_false]
      exact ⟨['N', 'a', 'N'], by decide, by decide, List.all_eq_true.mp (by decide)⟩
    · rename_i hnan
      have hsign : d.isNegative = d.negative := by simp [isNegative, hnonzero, hnan]
      rw [hsign]
      split
      · exact ⟨_, String.toList_ofList, by decide, List.all_eq_true.mp (by decide)⟩
      · exact ⟨_, String.toList_ofList, positional_ne_nil _,
          fun c => isNumeral_of_mem_positional⟩

end Double

end Bracket
