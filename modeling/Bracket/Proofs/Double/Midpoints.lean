import Bracket.Double.Shortest
import Bracket.Proofs.Double.Rounding

/-!
# Midpoints between doubles

The sizes of words grow with the words, and the gap above a word is the power of two that its
shift gives.  A ratio is rounded to a word if it lies between the midpoints to the two words next
to it, where a midpoint itself belongs to the even one of its neighbours.  At most one word has
this property.  Rounding a ratio finds it, and the shortest decimal of a word stays between the
midpoints around the word.
-/

namespace Bracket

namespace Double

/-! ## The sizes of words -/

theorem two_pow_succ (k : Nat) : Nat.pow 2 (k + 1) = 2 * Nat.pow 2 k := Nat.pow_succ'

/-- The next word has the next significand, or the first one with a larger shift. -/
theorem significand_succ
    (word : Nat) :
    (shift (word + 1) = shift word ∧ significand (word + 1) = significand word + 1) ∨
      (shift (word + 1) = shift word + 1 ∧ significand (word + 1) = Nat.pow 2 52 ∧
        significand word + 1 = 2 * Nat.pow 2 52) := by
  unfold significand shift
  rw [show Nat.pow 2 52 = 4503599627370496 from rfl]
  omega

/-- The gap above a word. -/
theorem sizeOfWord_succ
    (word : Nat) : sizeOfWord (word + 1) = sizeOfWord word + Nat.pow 2 (shift word) := by
  unfold sizeOfWord
  rcases significand_succ word with ⟨hshift, hnext⟩ | ⟨hshift, hnext, hlast⟩
  · rw [hshift, hnext, Nat.succ_mul]
  · calc
      significand (word + 1) * Nat.pow 2 (shift (word + 1))
          = (2 * Nat.pow 2 52) * Nat.pow 2 (shift word) := by
        rw [hshift, hnext, two_pow_succ (shift word), Nat.mul_left_comm, Nat.mul_assoc]
      _ = significand word * Nat.pow 2 (shift word) + Nat.pow 2 (shift word) := by
        rw [← hlast, Nat.succ_mul]

theorem sizeOfWord_lt {a b : Nat} (h : a < b) : sizeOfWord a < sizeOfWord b := by
  induction b with
  | zero => exact absurd h (Nat.not_lt_zero a)
  | succ b ih =>
      have hgap : 0 < Nat.pow 2 (shift b) := Nat.two_pow_pos _
      rw [sizeOfWord_succ]
      rcases Nat.lt_succ_iff_lt_or_eq.mp h with hlt | rfl
      · exact Nat.lt_add_right _ (ih hlt)
      · exact Nat.lt_add_of_pos_right hgap

theorem sizeOfWord_le {a b : Nat} (h : a ≤ b) : sizeOfWord a ≤ sizeOfWord b := by
  rcases Nat.lt_or_eq_of_le h with hlt | rfl
  · exact Nat.le_of_lt (sizeOfWord_lt hlt)
  · exact Nat.le_refl _

theorem sizeOfWord_inj {a b : Nat} : sizeOfWord a = sizeOfWord b ↔ a = b := by
  constructor
  · intro h
    rcases Nat.lt_trichotomy a b with hlt | heq | hgt
    · exact absurd h (Nat.ne_of_lt (sizeOfWord_lt hlt))
    · exact heq
    · exact absurd h.symm (Nat.ne_of_lt (sizeOfWord_lt hgt))
  · exact congrArg sizeOfWord

/-- A significand with a carry moves into the next shift. -/
theorem sizeOfWord_of_carry
    {k m : Nat} (hlow : k = 0 ∨ Nat.pow 2 52 ≤ m) (hhigh : m ≤ 2 * Nat.pow 2 52) :
    sizeOfWord (k * Nat.pow 2 52 + m) = m * Nat.pow 2 k := by
  have hparts : (shift (k * Nat.pow 2 52 + m) = k ∧ significand (k * Nat.pow 2 52 + m) = m) ∨
      (shift (k * Nat.pow 2 52 + m) = k + 1 ∧
        2 * significand (k * Nat.pow 2 52 + m) = m) := by
    unfold significand shift
    rw [show Nat.pow 2 52 = 4503599627370496 from rfl] at hlow hhigh ⊢
    omega
  unfold sizeOfWord
  rcases hparts with ⟨hshift, hsignificand⟩ | ⟨hshift, hsignificand⟩
  · rw [hshift, hsignificand]
  · rw [hshift, two_pow_succ k, Nat.mul_left_comm, ← Nat.mul_assoc, hsignificand]

/-! ## Between midpoints -/

/-- The ratio `num / den` lies between the midpoints around a word, and on one of them only if the
word is even. -/
structure Between (num den word : Nat) : Prop where
  low : (sizeOfWord (word - 1) + sizeOfWord word) * den ≤ 2 * (num * unit)
  high : 2 * (num * unit) ≤ (sizeOfWord word + sizeOfWord (word + 1)) * den
  inner : word % 2 = 1 → (sizeOfWord (word - 1) + sizeOfWord word) * den < 2 * (num * unit) ∧
    2 * (num * unit) < (sizeOfWord word + sizeOfWord (word + 1)) * den

namespace Between

variable {num den a b : Nat}

/-- Words with a common midpoint are neighbours, and one of two neighbours is odd. -/
theorem le (hden : 0 < den) (h : Between num den a) (h' : Between num den b) : a ≤ b := by
  refine Nat.le_of_not_lt fun hlt => ?_
  have hbelow : sizeOfWord b ≤ sizeOfWord (a - 1) := sizeOfWord_le (by omega)
  have habove : sizeOfWord (b + 1) ≤ sizeOfWord a := sizeOfWord_le hlt
  have hmiddle : (sizeOfWord (a - 1) + sizeOfWord a) * den ≤
      (sizeOfWord b + sizeOfWord (b + 1)) * den := Nat.le_trans h.low h'.high
  have hsizes := Nat.le_of_mul_le_mul_right hmiddle hden
  have hneighbours : b + 1 = a := sizeOfWord_inj.mp (by omega)
  by_cases hodd : a % 2 = 1
  · exact Nat.lt_irrefl _ (Nat.lt_of_lt_of_le (h.inner hodd).1 (Nat.le_trans h'.high
      (Nat.mul_le_mul_right den (Nat.add_le_add hbelow habove))))
  · exact Nat.lt_irrefl _ (Nat.lt_of_lt_of_le (h'.inner (by omega)).2 (Nat.le_trans
      (Nat.mul_le_mul_right den (Nat.add_le_add hbelow habove)) h.low))

theorem unique (hden : 0 < den) (h : Between num den a) (h' : Between num den b) : a = b :=
  Nat.le_antisymm (h.le hden h') (h'.le hden h)

/-- Only the ratio matters. -/
theorem congr
    {num' den' word : Nat} (hden : 0 < den) (hden' : 0 < den') (heq : num * den' = num' * den)
    (h : Between num den word) : Between num' den' word := by
  have hscaled : 2 * (num' * unit) * den = 2 * (num * unit) * den' := by
    rw [Nat.mul_assoc, Nat.mul_assoc 2, Nat.mul_right_comm num', ← heq, Nat.mul_right_comm num]
  have hle (m : Nat) : m * den' ≤ 2 * (num' * unit) ↔ m * den ≤ 2 * (num * unit) := by
    rw [← Nat.mul_le_mul_right_iff hden, hscaled, Nat.mul_right_comm m,
      Nat.mul_le_mul_right_iff hden']
  have hge (m : Nat) : 2 * (num' * unit) ≤ m * den' ↔ 2 * (num * unit) ≤ m * den := by
    rw [← Nat.mul_le_mul_right_iff hden, hscaled, Nat.mul_right_comm m,
      Nat.mul_le_mul_right_iff hden']
  refine ⟨(hle _).mpr h.low, (hge _).mpr h.high, fun hodd => ?_⟩
  rw [← Nat.not_le, ← Nat.not_le, hge, hle, Nat.not_le, Nat.not_le]
  exact h.inner hodd

end Between

/-! ## Rounding finds the word -/

/-- A rounded quotient is off by at most one half, and by one half only if it is even. -/
theorem roundQuotient_spec
    (num : Nat) {den : Nat} (hden : 0 < den) :
    2 * (roundQuotient num den * den) ≤ 2 * num + den ∧
      2 * num ≤ 2 * (roundQuotient num den * den) + den ∧
      (roundQuotient num den % 2 = 1 →
        2 * (roundQuotient num den * den) < 2 * num + den ∧
          2 * num < 2 * (roundQuotient num den * den) + den) := by
  have hsplit : num / den * den + num % den = num := by
    rw [Nat.mul_comm]
    exact Nat.div_add_mod num den
  have hrest : num % den < den := Nat.mod_lt num hden
  unfold roundQuotient
  dsimp only
  generalize num / den = q at hsplit ⊢
  generalize num % den = r at hsplit hrest ⊢
  have hnext : (q + 1) * den = q * den + den := Nat.succ_mul q den
  split
  · omega
  · split
    · omega
    · -- On the midpoint the quotient goes to the even neighbour.
      rcases Nat.mod_two_eq_zero_or_one q with heven | hodd
      · rw [heven, Nat.add_zero]
        omega
      · rw [hodd]
        omega

/-- With a shift, the significand before rounding has all its 53 bits. -/
theorem le_quotient
    (num den : Nat) (hshift : (num / den).log2 - 52 ≠ 0) :
    Nat.pow 2 52 ≤ num / (den * Nat.pow 2 ((num / den).log2 - 52)) := by
  have hpos : num / den ≠ 0 := by
    intro hzero
    rw [hzero] at hshift
    exact hshift (by decide)
  rw [Nat.pow_eq, Nat.pow_eq, ← Nat.div_div_eq_div_mul, Nat.le_div_iff_mul_le (Nat.two_pow_pos _),
    ← Nat.pow_add]
  calc
    2 ^ (52 + ((num / den).log2 - 52)) = 2 ^ (num / den).log2 := by
      rw [Nat.add_sub_cancel' (by omega)]
    _ ≤ num / den := Nat.log2_self_le hpos

theorem le_roundQuotient (num den : Nat) : num / den ≤ roundQuotient num den := by
  unfold roundQuotient
  dsimp only
  split
  · exact Nat.le_refl _
  · split <;> omega

section Rounded

variable {k r : Nat}

/-- The gap above a word with a shift is at least that of the shift. -/
theorem sizeOfWord_above
    (hlow : k = 0 ∨ Nat.pow 2 52 ≤ r) (hhigh : r ≤ 2 * Nat.pow 2 52) :
    (r + 1) * Nat.pow 2 k ≤ sizeOfWord (k * Nat.pow 2 52 + r + 1) := by
  have hshift : k ≤ shift (k * Nat.pow 2 52 + r) := by
    unfold shift
    rw [show Nat.pow 2 52 = 4503599627370496 from rfl] at hlow ⊢
    omega
  rw [sizeOfWord_succ, sizeOfWord_of_carry hlow hhigh, Nat.succ_mul]
  exact Nat.add_le_add_left (Nat.pow_le_pow_right (by decide) hshift) _

/-- Below the first word with a shift the gaps are smaller, below all others they are the same. -/
theorem sizeOfWord_below
    (hlow : k = 0 ∨ Nat.pow 2 52 ≤ r) (hhigh : r ≤ 2 * Nat.pow 2 52) (hpos : r ≠ 0) :
    (k ≠ 0 ∧ r = Nat.pow 2 52) ∨
      sizeOfWord (k * Nat.pow 2 52 + r - 1) + Nat.pow 2 k = r * Nat.pow 2 k := by
  by_cases hfirst : k ≠ 0 ∧ r = Nat.pow 2 52
  · exact .inl hfirst
  · have hlow' : k = 0 ∨ Nat.pow 2 52 ≤ r - 1 := by omega
    have hsize := sizeOfWord_of_carry hlow' (Nat.le_trans (Nat.sub_le r 1) hhigh)
    have hword : k * Nat.pow 2 52 + r - 1 = k * Nat.pow 2 52 + (r - 1) := by omega
    refine .inr ?_
    rw [hword, hsize, ← Nat.succ_mul, Nat.succ_eq_add_one, Nat.sub_add_cancel (by omega)]

end Rounded

/-- A ratio lies between the midpoints around its nearest word. -/
theorem between_nearestWord
    (num : Nat) {den : Nat} (hden : 0 < den) : Between num den (nearestWord num den) := by
  unfold nearestWord
  dsimp only
  have hquotient := le_quotient (num * unit) den
  have hbits := quotient_lt (num * unit) den
  generalize (num * unit / den).log2 - 52 = k at hquotient hbits ⊢
  have hspec := roundQuotient_spec (num * unit) (Nat.mul_pos hden (Nat.two_pow_pos k))
  have hfloor := le_roundQuotient (num * unit) (den * Nat.pow 2 k)
  have hceil := roundQuotient_le (num * unit) (den * Nat.pow 2 k)
  have hwhole := Nat.div_mul_le_self (num * unit) (den * Nat.pow 2 k)
  rw [← Nat.pow_eq] at hspec
  generalize num * unit / (den * Nat.pow 2 k) = q at hquotient hbits hfloor hceil hwhole
  generalize roundQuotient (num * unit) (den * Nat.pow 2 k) = r at hspec hfloor hceil ⊢
  have hlow : k = 0 ∨ Nat.pow 2 52 ≤ r := by omega
  have hhigh : r ≤ 2 * Nat.pow 2 52 := by
    have hcarry : Nat.pow 2 53 = 2 * Nat.pow 2 52 := two_pow_succ 52
    omega
  have hparity : (k * Nat.pow 2 52 + r) % 2 = r % 2 := by
    rw [show Nat.pow 2 52 = 4503599627370496 from rfl]
    omega
  obtain ⟨hbelow, habove, hinner⟩ := hspec
  have hsize : sizeOfWord (k * Nat.pow 2 52 + r) * den = r * (den * Nat.pow 2 k) := by
    rw [sizeOfWord_of_carry hlow hhigh]
    ac_rfl
  have hnext : r * (den * Nat.pow 2 k) + den * Nat.pow 2 k ≤
      sizeOfWord (k * Nat.pow 2 52 + r + 1) * den := by
    rw [← Nat.succ_mul, Nat.mul_comm den, ← Nat.mul_assoc]
    exact Nat.mul_le_mul_right den (sizeOfWord_above hlow hhigh)
  have hmonotone : sizeOfWord (k * Nat.pow 2 52 + r - 1) * den ≤
      sizeOfWord (k * Nat.pow 2 52 + r) * den :=
    Nat.mul_le_mul_right den (sizeOfWord_le (Nat.sub_le _ 1))
  -- The gap below may be smaller, but then the quotient was not rounded down.
  have hprevious : r * (den * Nat.pow 2 k) ≤ num * unit ∧ r % 2 = 0 ∨
      sizeOfWord (k * Nat.pow 2 52 + r - 1) * den + den * Nat.pow 2 k =
        r * (den * Nat.pow 2 k) := by
    by_cases hpos : r = 0
    · rw [hpos, Nat.zero_mul]
      exact .inl ⟨Nat.zero_le _, rfl⟩
    · rcases sizeOfWord_below hlow hhigh hpos with ⟨hshift, hfirst⟩ | hgap
      · have hq : q = r := by
          have := hquotient hshift
          omega
        exact .inl ⟨hq ▸ hwhole, by rw [hfirst]⟩
      · refine .inr ?_
        rw [Nat.mul_comm den, ← Nat.add_mul, hgap, Nat.mul_assoc]
  generalize den * Nat.pow 2 k = step at *
  refine ⟨?_, ?_, fun hodd => ?_⟩
  · rw [Nat.add_mul]
    omega
  · rw [Nat.add_mul]
    omega
  · have := hinner (hparity ▸ hodd)
    rw [Nat.add_mul, Nat.add_mul]
    omega

/-- A ratio between the midpoints around a word is rounded to the word. -/
theorem Between.nearestWord_eq
    {num den word : Nat} (hden : 0 < den) (h : Between num den word) :
    nearestWord num den = word :=
  (between_nearestWord num hden).unique hden h

/-! ## Decimals that read back -/

/-- The gap below a word is that above the word before. -/
theorem halfGapBelow_succ
    (word : Nat) :
    halfGapBelow (word + 1) = 2 * Nat.pow 2 (shift word) * Nat.pow 5 places := by
  have hshift : (narrowBelow (word + 1) = true ∧ shift (word + 1) = shift word + 1) ∨
      (narrowBelow (word + 1) = false ∧ shift (word + 1) = shift word) := by
    unfold narrowBelow shift
    rw [show Nat.pow 2 52 = 4503599627370496 from rfl, decide_eq_true_iff, decide_eq_false_iff_not]
    omega
  unfold halfGapBelow halfGapAbove
  rcases hshift with ⟨hnarrow, hshift⟩ | ⟨hnarrow, hshift⟩
  · rw [if_pos hnarrow, hshift, two_pow_succ]
  · rw [hnarrow, hshift]
    rfl

/-- Twice the sum with the next word, as a multiple of `10 ^ (-1074)`, is four times the upper
midpoint. -/
theorem exactDecimal_add_halfGapAbove
    (word : Nat) :
    4 * exactDecimal word + halfGapAbove word =
      2 * ((sizeOfWord word + sizeOfWord (word + 1)) * Nat.pow 5 places) := by
  unfold exactDecimal halfGapAbove
  rw [sizeOfWord_succ, Nat.mul_assoc 2, Nat.add_mul, Nat.add_mul]
  omega

theorem exactDecimal_sub_halfGapBelow
    (word : Nat) :
    4 * exactDecimal word - halfGapBelow word =
      2 * ((sizeOfWord (word - 1) + sizeOfWord word) * Nat.pow 5 places) := by
  cases word with
  | zero =>
      have hzero : sizeOfWord 0 = 0 := by decide
      simp only [exactDecimal, hzero, Nat.zero_mul, Nat.mul_zero, Nat.zero_sub, Nat.add_zero]
  | succ word =>
      unfold exactDecimal
      rw [halfGapBelow_succ, sizeOfWord_succ, Nat.add_sub_cancel, Nat.mul_assoc 2, Nat.add_mul,
        Nat.add_mul, Nat.add_mul]
      omega

theorem unit_pos : 0 < unit := by
  unfold unit
  -- The exponent becomes a variable, so that no power of it is evaluated.
  generalize 1074 = e
  exact Nat.two_pow_pos e

theorem pow_ten_places : Nat.pow 10 places = unit * Nat.pow 5 places := by
  unfold unit places
  generalize 1074 = e
  exact Nat.mul_pow 2 5 e

/-- A decimal reads back as a word exactly if it lies between the midpoints around the word. -/
theorem readsBack_iff_between
    (word v : Nat) : readsBack word v = true ↔ Between v (Nat.pow 10 places) word := by
  have hscale (m : Nat) : 2 * (m * Nat.pow 10 places) = unit * (2 * (m * Nat.pow 5 places)) := by
    rw [pow_ten_places, Nat.mul_left_comm m, Nat.mul_left_comm 2]
  have hvalue : 2 * (2 * (v * unit)) = unit * (4 * v) := by
    rw [Nat.mul_comm unit, Nat.mul_assoc 4, ← Nat.mul_assoc 2 2]
  have hle (m : Nat) :
      m * Nat.pow 10 places ≤ 2 * (v * unit) ↔ 2 * (m * Nat.pow 5 places) ≤ 4 * v := by
    rw [← Nat.mul_le_mul_left_iff (by decide : 0 < 2), hscale, hvalue,
      Nat.mul_le_mul_left_iff unit_pos]
  have hge (m : Nat) :
      2 * (v * unit) ≤ m * Nat.pow 10 places ↔ 4 * v ≤ 2 * (m * Nat.pow 5 places) := by
    rw [← Nat.mul_le_mul_left_iff (by decide : 0 < 2), hscale, hvalue,
      Nat.mul_le_mul_left_iff unit_pos]
  have hlt (m : Nat) :
      m * Nat.pow 10 places < 2 * (v * unit) ↔ 2 * (m * Nat.pow 5 places) < 4 * v := by
    rw [← Nat.not_le, hge, Nat.not_le]
  have hgt (m : Nat) :
      2 * (v * unit) < m * Nat.pow 10 places ↔ 4 * v < 2 * (m * Nat.pow 5 places) := by
    rw [← Nat.not_le, hle, Nat.not_le]
  unfold readsBack
  rw [exactDecimal_sub_halfGapBelow, exactDecimal_add_halfGapAbove]
  dsimp only
  split
  · rename_i heven
    rw [decide_eq_true_iff, ← hle, ← hge]
    exact ⟨fun h => ⟨h.1, h.2, fun hodd => absurd heven (by omega)⟩, fun h => ⟨h.low, h.high⟩⟩
  · rename_i hodd
    rw [decide_eq_true_iff, ← hlt, ← hgt]
    exact ⟨fun h => ⟨Nat.le_of_lt h.1, Nat.le_of_lt h.2, fun _ => h⟩, fun h => h.inner (by omega)⟩

/-- What is found on a grid reads back. -/
theorem readsBack_of_neighbourOn
    {word exact grid v : Nat} (h : neighbourOn word exact grid = some v) :
    readsBack word v = true := by
  unfold neighbourOn at h
  dsimp only at h
  split at h
  · split at h <;> (cases h; assumption)
  · cases h
    assumption
  · cases h
    assumption
  · cases h

/-- The size of a word lies between its midpoints. -/
theorem readsBack_exactDecimal (word : Nat) : readsBack word (exactDecimal word) = true := by
  have hgap : 0 < Nat.pow 2 (shift word) * Nat.pow 5 places := by
    generalize places = e
    exact Nat.mul_pos (Nat.two_pow_pos _) (Nat.pow_pos (by decide))
  have habove : 0 < halfGapAbove word := by
    unfold halfGapAbove
    rw [Nat.mul_assoc]
    exact Nat.mul_pos (by decide) hgap
  have hbelow : 0 < halfGapBelow word := by
    unfold halfGapBelow
    split
    · exact hgap
    · exact habove
  have hpos : word % 2 = 1 → 0 < exactDecimal word := by
    intro hodd
    have hsize : sizeOfWord 0 < sizeOfWord word := sizeOfWord_lt (by omega)
    exact Nat.mul_pos (by omega) (Nat.pos_of_mul_pos_left hgap)
  unfold readsBack
  dsimp only
  split
  · rw [decide_eq_true_iff]
    omega
  · rename_i hodd
    have := hpos (by omega)
    rw [decide_eq_true_iff]
    omega

/-- The shortest decimal of a word reads back as the word. -/
theorem readsBack_shortest (word : Nat) : readsBack word (shortest word) = true := by
  unfold shortest
  generalize hexact : exactDecimal word = exact
  dsimp only
  cases hfound : (List.range 17).findSome? fun i => neighbourOn word exact
      (Nat.pow 10 ((Nat.toDigits 10 exact).length - (i + 1))) with
  | none =>
      rw [Option.getD_none, ← hexact]
      exact readsBack_exactDecimal word
  | some v =>
      obtain ⟨i, -, hi⟩ := List.exists_of_findSome?_eq_some hfound
      exact readsBack_of_neighbourOn hi

end Double

end Bracket
