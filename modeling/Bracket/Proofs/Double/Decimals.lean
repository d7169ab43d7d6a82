import Mathlib.Data.List.TakeDrop
import Bracket.Double.Text
import Bracket.Json.Reader
import Bracket.Proofs.Double.Midpoints
import Bracket.Proofs.Double.Numerals

/-!
# Reading positional decimals

The positional text of a number is read as a numeral: the digits before and behind the point are
one number, and the exponent counts those behind the point.  The zeros that are left out at the
end do not change the ratio that the numeral stands for.

A numeral is read as a word exactly if its ratio lies between the midpoints around the word.
Numerals that are settled by the number of their digits alone are no exception.
-/

namespace Bracket

namespace Double

open Json.Reader (digitsValue spanDigits wholePart? fractionPart? exponentPart? numeral?)

/-! ## The value of digits -/

theorem digitsValue_eq (digits : List Char) : digitsValue digits = Nat.ofDigitChars 10 digits 0 :=
  Nat.ofDigitChars_eq_foldl.symm

theorem digitsValue_append
    (a b : List Char) :
    digitsValue (a ++ b) = digitsValue a * Nat.pow 10 b.length + digitsValue b := by
  rw [digitsValue_eq, Nat.ofDigitChars_append, Nat.ofDigitChars_eq_ofDigitChars_zero,
    Nat.mul_comm, ← digitsValue_eq, ← digitsValue_eq]
  rfl

theorem digitsValue_natDigits (n : Nat) : digitsValue (natDigits n) = n := by
  rw [digitsValue_eq]
  exact Nat.ofDigitChars_ten_toDigits

theorem digitsValue_zeros (k : Nat) : digitsValue (List.replicate k '0') = 0 := by
  rw [digitsValue_eq, Nat.ofDigitChars_replicate_zero, Nat.mul_zero]

theorem isDigit_natDigits (n : Nat) : ∀ c ∈ natDigits n, c.isDigit = true :=
  fun _ => Nat.isDigit_of_mem_toDigits (by decide) (by decide)

theorem natDigits_eq_cons
    (n : Nat) : ∃ first rest, natDigits n = first :: rest ∧ first.isDigit = true := by
  cases hdigits : natDigits n with
  | nil => exact absurd hdigits Nat.toDigits_ne_nil
  | cons first rest =>
      exact ⟨first, rest, rfl, isDigit_natDigits n first (hdigits ▸ List.mem_cons_self)⟩

/-- Only zero is written with a zero in front. -/
theorem natDigits_of_ne_zero
    {n : Nat} (h : n ≠ 0) : ∃ first rest, natDigits n = first :: rest ∧ first ≠ '0' := by
  induction n using Nat.strongRecOn with
  | ind n ih =>
      unfold natDigits at ih ⊢
      by_cases hsmall : n < 10
      · refine ⟨n.digitChar, [], Nat.toDigits_of_lt_base hsmall, ?_⟩
        have hdigit : ∀ m < 10, m ≠ 0 → m.digitChar ≠ '0' := by decide
        exact hdigit n hsmall h
      · obtain ⟨first, rest, hdigits, hfirst⟩ := ih (n / 10) (by omega) (by omega)
        refine ⟨first, rest ++ [(n % 10).digitChar], ?_, hfirst⟩
        rw [Nat.toDigits_of_base_le (by decide) (by omega), hdigits]
        rfl

/-! ## Positional text -/

theorem length_paddedDigits
    {width n : Nat} (h : n < Nat.pow 10 width) (hwidth : 0 < width) :
    (paddedDigits width n).length = width := by
  have hlength : (natDigits n).length ≤ width :=
    (Nat.length_toDigits_le_iff (by decide) hwidth).mpr h
  rw [paddedDigits, List.length_append, List.length_replicate, Nat.sub_add_cancel hlength]

theorem digitsValue_paddedDigits (width n : Nat) : digitsValue (paddedDigits width n) = n := by
  rw [paddedDigits, digitsValue_append, digitsValue_zeros, digitsValue_natDigits, Nat.zero_mul,
    Nat.zero_add]

theorem isDigit_paddedDigits
    (width n : Nat) : ∀ c ∈ paddedDigits width n, c.isDigit = true := by
  refine List.forall_mem_append.mpr ⟨fun c hc => ?_, isDigit_natDigits n⟩
  rw [List.eq_of_mem_replicate hc]
  decide

/-- What is dropped at the end of digits are zeros. -/
theorem dropTrailingZeros_append
    (digits : List Char) :
    ∃ k, digits = dropTrailingZeros digits ++ List.replicate k '0' := by
  have hzeros : ∀ c ∈ digits.reverse.takeWhile (· == '0'), c = '0' :=
    fun c hc => eq_of_beq (List.all_eq_true.mp List.all_takeWhile c hc)
  refine ⟨(digits.reverse.takeWhile (· == '0')).length, ?_⟩
  rw [dropTrailingZeros, ← List.reverse_replicate, ← List.reverse_append,
    ← List.eq_replicate_of_mem hzeros, List.takeWhile_append_dropWhile, List.reverse_reverse]

/-- The digits behind the point with the point, if there are any. -/
def pointed : List Char → List Char
  | [] => []
  | digits => '.' :: digits

/-- The parts of a positional text; all its digits together are the number, up to a power of
ten. -/
theorem positional_parts
    (v : Nat) :
    ∃ n fraction, positional v = natDigits n ++ pointed fraction ∧
      (∀ c ∈ fraction, c.isDigit = true) ∧
      digitsValue (natDigits n ++ fraction) * Nat.pow 10 places =
        v * Nat.pow 10 fraction.length := by
  have hsplit : v / Nat.pow 10 places * Nat.pow 10 places + v % Nat.pow 10 places = v := by
    rw [Nat.mul_comm]
    exact Nat.div_add_mod _ _
  have hrest : v % Nat.pow 10 places < Nat.pow 10 places := by
    generalize places = e
    exact Nat.mod_lt _ (Nat.pow_pos (by decide))
  unfold positional
  dsimp only
  generalize v / Nat.pow 10 places = n at hsplit ⊢
  generalize v % Nat.pow 10 places = rest at hsplit hrest ⊢
  split
  · rename_i hwhole
    refine ⟨n, [], (List.append_nil _).symm, fun _ hc => absurd hc List.not_mem_nil, ?_⟩
    rw [hwhole, Nat.add_zero] at hsplit
    rw [List.append_nil, digitsValue_natDigits, hsplit]
    exact (Nat.mul_one v).symm
  · rename_i hfraction
    obtain ⟨k, hzeros⟩ := dropTrailingZeros_append (paddedDigits places rest)
    have hpadded := isDigit_paddedDigits places rest
    have hlength := length_paddedDigits hrest (by decide)
    have hvalue := digitsValue_paddedDigits places rest
    generalize dropTrailingZeros (paddedDigits places rest) = kept at hzeros ⊢
    rw [hzeros] at hpadded hlength hvalue
    refine ⟨n, kept, ?_, (List.forall_mem_append.mp hpadded).1, ?_⟩
    · cases kept with
      | nil => exact absurd (hvalue.symm.trans (digitsValue_zeros k)) hfraction
      | cons c cs => rfl
    · have hpow : Nat.pow 10 places = Nat.pow 10 k * Nat.pow 10 kept.length := by
        rw [List.length_append, List.length_replicate, Nat.add_comm] at hlength
        rw [← hlength]
        exact Nat.pow_add 10 k kept.length
      rw [digitsValue_append, digitsValue_zeros, Nat.add_zero, List.length_replicate] at hvalue
      calc
        digitsValue (natDigits n ++ kept) * Nat.pow 10 places
            = (n * Nat.pow 10 kept.length + digitsValue kept) * Nat.pow 10 k *
                Nat.pow 10 kept.length := by
          rw [digitsValue_append, digitsValue_natDigits, hpow, Nat.mul_assoc]
        _ = (n * Nat.pow 10 places + rest) * Nat.pow 10 kept.length := by
          rw [Nat.add_mul, hvalue, hpow, Nat.mul_comm (Nat.pow 10 k), Nat.mul_assoc n]
        _ = v * Nat.pow 10 kept.length := by rw [hsplit]

/-- The text of a number behind its sign is positional, or the name of a special value. -/
theorem toList_text_cases
    (range : WholeRange) (hzero : range.covers 0 = true) (d : Double) :
    ∃ body, (d.text range).toList = signed d.isNegative body ∧
      (body = ['i', 'n', 'f'] ∨ body = ['N', 'a', 'N'] ∨
        ∃ n fraction, body = natDigits n ++ pointed fraction ∧
          ∀ c ∈ fraction, c.isDigit = true) := by
  unfold text
  split
  · rename_i hwhole
    rw [Bool.and_eq_true] at hwhole
    rw [wholeText, negative_and_written range hwhole.1]
    exact ⟨_, String.toList_ofList, .inr (.inr
      ⟨_, [], (List.append_nil _).symm, fun _ hc => absurd hc List.not_mem_nil⟩)⟩
  · rename_i hwhole
    have hnonzero := isZero_eq_false hzero hwhole
    unfold shortestText
    split
    · rename_i hnan
      rw [isNegative, hnan, Bool.not_true, Bool.and_false]
      exact ⟨_, rfl, .inr (.inl rfl)⟩
    · rename_i hnan
      have hsign : d.isNegative = d.negative := by simp [isNegative, hnonzero, hnan]
      rw [hsign]
      split
      · exact ⟨_, String.toList_ofList, .inl rfl⟩
      · obtain ⟨n, fraction, hpositional, hdigits, -⟩ := positional_parts (shortest d.word)
        exact ⟨_, String.toList_ofList, .inr (.inr ⟨n, fraction, hpositional, hdigits⟩)⟩

/-- The number without its sign. -/
def withoutSign (d : Double) : Double := ofParts false d.word

theorem word_withoutSign (d : Double) : d.withoutSign.word = d.word :=
  word_ofParts false (Nat.mod_lt _ (by decide))

theorem negative_withoutSign (d : Double) : d.withoutSign.negative = false := by
  have hword : d.word < Nat.pow 2 63 := Nat.mod_lt _ (by decide)
  unfold negative withoutSign ofParts
  rw [decide_eq_false_iff_not, Nat.not_le]
  simp only [Nat.pow_eq, Bool.false_eq_true, if_false, UInt64.toNat_ofNat'] at hword ⊢
  omega

/-- A negative number is written as the number without its sign, behind a sign. -/
theorem toList_text_of_isNegative
    (bound : Nat) {d : Double} (h : d.isNegative = true) :
    (d.text (.below bound)).toList = '-' :: (d.withoutSign.text (.below bound)).toList := by
  have hsize : d.withoutSign.numerator = d.numerator := by
    rw [numerator, word_withoutSign, numerator]
  have hwhole : d.withoutSign.isWhole = d.isWhole := by
    rw [isWhole, isWhole, isFinite, isFinite, hsize, word_withoutSign]
  have hwholeSize : d.withoutSign.wholeSize = d.wholeSize := by rw [wholeSize, hsize, wholeSize]
  have hnan : d.withoutSign.isNaN = d.isNaN := by rw [isNaN, word_withoutSign, isNaN]
  have hinfinite : d.withoutSign.isInfinite = d.isInfinite := by
    rw [isInfinite, word_withoutSign, isInfinite]
  have hparts : d.negative = true ∧ d.isNaN = false := by
    simp only [isNegative, Bool.and_eq_true, Bool.not_eq_true'] at h
    exact ⟨h.1.1, h.2⟩
  unfold text
  rw [hwhole, hwholeSize, negative_withoutSign]
  split
  · rename_i hcovered
    rw [Bool.and_eq_true] at hcovered
    rw [wholeText, negative_and_written _ hcovered.1, h]
    simp [wholeText, signed, WholeRange.written]
  · unfold shortestText
    rw [hnan, hinfinite, hparts.2, hparts.1, negative_withoutSign, word_withoutSign]
    split
    · rename_i hfalse
      cases hfalse
    · split <;> simp [signed]

/-! ## Reading a positional text -/

theorem spanDigits_append
    {digits rest : List Char} (hdigits : ∀ c ∈ digits, c.isDigit = true)
    (hrest : ∀ c ∈ rest.head?, c.isDigit = false) :
    spanDigits (digits ++ rest) = (digits, rest) := by
  have hstop : rest.takeWhile Char.isDigit = [] ∧ rest.dropWhile Char.isDigit = rest := by
    cases rest with
    | nil => exact ⟨rfl, rfl⟩
    | cons c rest =>
        have hc : c.isDigit = false := hrest c rfl
        simp [hc]
  rw [spanDigits, List.span_eq_takeWhile_dropWhile, List.takeWhile_append_of_pos hdigits,
    List.dropWhile_append_of_pos hdigits, hstop.1, hstop.2, List.append_nil]

theorem wholePart?_natDigits
    (n : Nat) {rest : List Char} (hrest : ∀ c ∈ rest.head?, c.isDigit = false) :
    wholePart? (natDigits n ++ rest) = some (natDigits n, rest) := by
  rw [wholePart?, spanDigits_append (isDigit_natDigits n) hrest]
  by_cases hzero : n = 0
  · subst hzero
    rfl
  · obtain ⟨first, others, hdigits, hfirst⟩ := natDigits_of_ne_zero hzero
    rw [hdigits]
    split
    · rename_i heq
      cases heq
    · rename_i heq
      cases heq
      exact absurd rfl hfirst
    · rename_i heq
      cases heq
      exact absurd rfl hfirst
    · rename_i heq
      cases heq
      rfl

theorem not_isDigit_pointed
    (fraction : List Char) : ∀ c ∈ (pointed fraction).head?, c.isDigit = false := by
  cases fraction with
  | nil => exact fun _ hc => absurd hc (by simp [pointed])
  | cons d ds =>
      intro c hc
      cases hc
      decide

theorem fractionPart?_pointed
    {fraction : List Char} (h : ∀ c ∈ fraction, c.isDigit = true) :
    fractionPart? (pointed fraction) = some (fraction, []) := by
  cases fraction with
  | nil => rfl
  | cons d ds =>
      have hempty : ∀ c ∈ ([] : List Char).head?, c.isDigit = false :=
        fun _ hc => absurd hc (by simp)
      have hspan : spanDigits (d :: ds) = (d :: ds, []) := by
        simpa using spanDigits_append h hempty
      rw [pointed, fractionPart?, hspan]
      · exact List.cons_ne_nil d ds

/-- A text in front of which a sign may stand is read as the numeral of its two parts. -/
theorem numeral?_signed
    {negative : Bool} {text whole rest fraction : List Char} (hsign : ∀ c ∈ text.head?, c ≠ '-')
    (hwhole : wholePart? text = some (whole, rest))
    (hfraction : fractionPart? rest = some (fraction, []))
    (hdouble : (Numeral.toDouble? ⟨negative, digitsValue (whole ++ fraction),
      -fraction.length, fraction.isEmpty⟩).isSome = true) :
    numeral? (signed negative text) =
      some (⟨negative, digitsValue (whole ++ fraction), -fraction.length,
        fraction.isEmpty⟩, []) := by
  unfold numeral?
  split
  rename_i sign s hread
  have hsigned : (sign, s) = (negative, text) := by
    rw [← hread]
    cases negative with
    | true => rfl
    | false =>
        cases text with
        | nil => rfl
        | cons c rest =>
            have hc : c ≠ '-' := hsign c rfl
            simp [signed, hc]
  cases hsigned
  rw [hwhole]
  simp only [Option.bind_eq_bind, Option.bind_some, hfraction, exponentPart?, Option.getD_none,
    Option.isNone_none, Bool.and_true, Int.zero_sub, hdouble, if_true]

/-! ## From numerals to words -/

theorem pow_ten_add (a b : Nat) : Nat.pow 10 (a + b) = Nat.pow 10 a * Nat.pow 10 b :=
  Nat.pow_add 10 a b

theorem lt_pow_length (n : Nat) : n < Nat.pow 10 (natDigits n).length :=
  (Nat.length_toDigits_le_iff (by decide) (List.length_pos_iff.mpr Nat.toDigits_ne_nil)).mp
    (Nat.le_refl _)

theorem pow_le_of_lt_length
    {n k : Nat} (hk : 0 < k) (h : k < (natDigits n).length) : Nat.pow 10 k ≤ n :=
  Nat.le_of_not_lt fun hlt =>
    Nat.not_le_of_lt h ((Nat.length_toDigits_le_iff (by decide) hk).mpr hlt)

/-- Ratios up to half of the least positive size are rounded to zero. -/
theorem between_zero {num den : Nat} (h : 2 * (num * unit) ≤ den) : Between num den 0 := by
  have hsizes : sizeOfWord 0 = 0 ∧ sizeOfWord 1 = 1 := by decide
  refine ⟨?_, ?_, fun hodd => absurd hodd (by decide)⟩
  · rw [Nat.zero_sub, hsizes.1, Nat.zero_mul]
    exact Nat.zero_le _
  · rw [Nat.zero_add, hsizes.1, hsizes.2, Nat.zero_add, Nat.one_mul]
    exact h

/-- The number of digits shows that a ratio is rounded to zero. -/
theorem between_zero_of_length
    {m p : Nat} (h : (natDigits m).length + 400 ≤ p) : Between m (Nat.pow 10 p) 0 := by
  -- The exponent becomes a variable, so that no power of it is evaluated.
  obtain ⟨e, he, hunit⟩ : ∃ e, 400 = e ∧ 2 * unit ≤ Nat.pow 10 e := ⟨400, rfl, by decide +kernel⟩
  rw [he] at h
  refine between_zero ?_
  calc
    2 * (m * unit) = m * (2 * unit) := Nat.mul_left_comm _ _ _
    _ ≤ Nat.pow 10 (natDigits m).length * Nat.pow 10 e :=
      Nat.mul_le_mul (Nat.le_of_lt (lt_pow_length m)) hunit
    _ = Nat.pow 10 ((natDigits m).length + e) := (pow_ten_add _ _).symm
    _ ≤ Nat.pow 10 p := Nat.pow_le_pow_right (by decide) h

/-- Ratios from `10 ^ 400` on are rounded to no finite word. -/
theorem Between.lt_of_finite
    {m p word : Nat} (h : Between m (Nat.pow 10 p) word) (hfinite : word < infinityWord) :
    m < Nat.pow 10 (400 + p) := by
  obtain ⟨e, he, hlargest⟩ : ∃ e, 400 = e ∧ sizeOfWord infinityWord < Nat.pow 10 e * unit :=
    ⟨400, rfl, by decide +kernel⟩
  have hsizes : sizeOfWord word + sizeOfWord (word + 1) ≤ 2 * sizeOfWord infinityWord := by
    have hword := sizeOfWord_lt hfinite
    have hnext : sizeOfWord (word + 1) ≤ sizeOfWord infinityWord := sizeOfWord_le hfinite
    omega
  have hpow : 0 < Nat.pow 10 p := Nat.pow_pos (by decide)
  rw [he, pow_ten_add]
  refine Nat.lt_of_mul_lt_mul_right (a := unit) ?_
  calc
    m * unit ≤ sizeOfWord infinityWord * Nat.pow 10 p := by
      refine Nat.le_of_mul_le_mul_left (Nat.le_trans h.high ?_) (by decide : 0 < 2)
      rw [← Nat.mul_assoc]
      exact Nat.mul_le_mul_right _ hsizes
    _ < Nat.pow 10 e * unit * Nat.pow 10 p := (Nat.mul_lt_mul_right hpow).mpr hlargest
    _ = Nat.pow 10 e * Nat.pow 10 p * unit := Nat.mul_right_comm _ _ _

theorem Between.ofRatio?_eq
    {negative : Bool} {num den word : Nat} (hden : 0 < den) (h : Between num den word)
    (hfinite : word < infinityWord) :
    ofRatio? negative num den = some (ofParts negative word) := by
  rw [ofRatio?, h.nearestWord_eq hden]
  exact if_pos hfinite

/-- A numeral is read as the word that is nearest to its ratio. -/
theorem Between.ofDecimal?_eq
    {negative : Bool} {m p word : Nat} (h : Between m (Nat.pow 10 p) word)
    (hfinite : word < infinityWord) :
    ofDecimal? negative m (-p) = some (ofParts negative word) := by
  have hpow : 0 < Nat.pow 10 p := Nat.pow_pos (by decide)
  unfold ofDecimal?
  dsimp only
  split
  · rename_i hm
    rw [h.unique hpow (between_zero (by simp [hm]))]
  · split
    · rename_i hdigits
      rw [h.unique hpow (between_zero_of_length (by unfold natDigits; omega))]
    · split
      · rename_i hdigits
        have hlarge : Nat.pow 10 (400 + p) ≤ m :=
          pow_le_of_lt_length (by omega) (by unfold natDigits; omega)
        exact absurd hlarge (Nat.not_le_of_lt (h.lt_of_finite hfinite))
      · split
        · rename_i hp
          have hp : p = 0 := by omega
          subst hp
          rw [show m * Nat.pow 10 (-((0 : Nat) : Int)).toNat = m from Nat.mul_one m]
          exact h.ofRatio?_eq (by decide) hfinite
        · rw [Int.neg_neg, Int.toNat_natCast]
          exact h.ofRatio?_eq hpow hfinite

end Double

end Bracket
