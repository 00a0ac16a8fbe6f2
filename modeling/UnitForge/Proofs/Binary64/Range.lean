import UnitForge.Binary64.Basic
import Mathlib.Data.Nat.Digits.Defs

/-! # The range of double-precision numbers

Integers of any size have a nearest double-precision number. It is finite for those that lie below
the middle between the greatest finite number and the next power of two, and infinite for all
others. -/
set_option autoImplicit false
namespace UnitForge.Binary64

/-- The least integer that no finite number is nearest to. -/
def tooLarge : Nat :=
  2 ^ 1024 - 2 ^ 970

theorem tooLarge_eq {k : Nat} (last : k = 970) :
    tooLarge = (2 ^ 53 - 1) * (2 * 2 ^ k) + 2 ^ k := by
  subst last
  decide +kernel

theorem tooLarge_le {j k : Nat} (first : j = 1024) (many : j ≤ k) : tooLarge ≤ 2 ^ k := by
  have bound : tooLarge ≤ 2 ^ j := by
    subst first
    decide +kernel
  exact Nat.le_trans bound (Nat.pow_le_pow_right (by omega) many)

/-! ## Fields -/

theorem exponentField_ofFields (negative : Bool) {exponent fraction : Nat}
    (exponent_lt : exponent < 2 ^ 11) (fraction_lt : fraction < 2 ^ 52) :
    (ofFields negative exponent fraction).exponentField = exponent := by
  simp only [exponentField, ofFields, Nat.toUInt64, UInt64.toNat_ofNat']
  cases negative with
  | true =>
      rw [if_pos rfl]
      omega
  | false =>
      rw [if_neg Bool.false_ne_true]
      omega

theorem isFinite_ofFields (negative : Bool) {exponent fraction : Nat}
    (exponent_lt : exponent < 2047) (fraction_lt : fraction < 2 ^ 52) :
    (ofFields negative exponent fraction).isFinite = true := by
  rw [isFinite, exponentField_ofFields negative (by omega) fraction_lt]
  simp only [decide_eq_true_eq]
  omega

theorem neg_infinity : (infinity false).neg = infinity true := by
  decide

theorem isFinite_neg (x : Binary64) : x.neg.isFinite = x.isFinite := by
  unfold neg
  split
  · rfl
  · have kept : (x.bits ^^^ 0x8000000000000000).toNat / 2 ^ 52 % 2 ^ 11 =
        x.bits.toNat / 2 ^ 52 % 2 ^ 11 := by
      rw [UInt64.toNat_xor]
      apply Nat.eq_of_testBit_eq
      intro i
      have sign : (0x8000000000000000 : UInt64).toNat = 2 ^ 63 := rfl
      rw [sign, Nat.testBit_mod_two_pow, Nat.testBit_mod_two_pow, Nat.testBit_div_two_pow,
        Nat.testBit_div_two_pow, Nat.testBit_xor, Nat.testBit_two_pow]
      by_cases low : i < 11
      · have other : ¬i = 11 := by omega
        simp [low, other]
      · simp [low]
    have same : (⟨x.bits ^^^ 0x8000000000000000⟩ : Binary64).exponentField = x.exponentField := kept
    rw [isFinite, isFinite, same]

/-! ## Rounding -/

theorem roundQuotient_bounds (num den : Nat) :
    num / den ≤ roundQuotient num den ∧ roundQuotient num den ≤ num / den + 1 := by
  unfold roundQuotient
  dsimp only
  split
  · omega
  · split
    · omega
    · split <;> omega

theorem roundQuotient_one (num : Nat) : roundQuotient num 1 = num := by
  simp [roundQuotient, Nat.mod_one]

theorem scaled_neg (num den k : Nat) : scaled num den (-(k : Int)) = (num, den * 2 ^ k) := by
  unfold scaled
  by_cases none : k = 0
  · subst none
    simp
  · rw [if_neg (by omega)]
    simp

theorem scaled_natCast (num den k : Nat) : scaled num den (k : Int) = (num * 2 ^ k, den) := by
  unfold scaled
  rw [if_pos (by omega), Int.toNat_natCast]

def assembled (exponent : Int) (mantissa : Nat) : Binary64 :=
  if (exponent + 1074).toNat * 2 ^ 52 + mantissa ≥ 2047 * 2 ^ 52 then infinity false
  else ofFields false (((exponent + 1074).toNat * 2 ^ 52 + mantissa) / 2 ^ 52)
    (((exponent + 1074).toNat * 2 ^ 52 + mantissa) % 2 ^ 52)

theorem assembled_eq_infinity {exponent : Int} {mantissa : Nat}
    (large : 2047 * 2 ^ 52 ≤ (exponent + 1074).toNat * 2 ^ 52 + mantissa) :
    assembled exponent mantissa = infinity false := by
  rw [assembled, if_pos large]

theorem isFinite_assembled {exponent : Int} {mantissa : Nat}
    (small : (exponent + 1074).toNat * 2 ^ 52 + mantissa < 2047 * 2 ^ 52) :
    (assembled exponent mantissa).isFinite = true := by
  rw [assembled, if_neg (by omega)]
  apply isFinite_ofFields <;> omega

/-- The guess of the exponent is right where the quotient has fifty-three bits. -/
theorem ofRatio_of_guess {num n d : Nat} (positive : num ≠ 0)
    (scale : scaled num 1 (-((num.log2 : Int) - 52)) = (n, d)) (low : 2 ^ 52 ≤ n / d)
    (high : n / d < 2 ^ 53) :
    ofRatio false num 1 = assembled ((num.log2 : Int) - 52) (roundQuotient n d) := by
  have guess : (num.log2 : Int) - ((1 : Nat).log2 : Int) - 52 = (num.log2 : Int) - 52 := by
    have one : (1 : Nat).log2 = 0 := by decide
    omega
  have above : ¬((num.log2 : Int) - 52 < -1074) := by omega
  rw [ofRatio, if_neg positive]
  simp only [guess, scale, if_neg (Nat.not_lt.mpr low), if_neg (Nat.not_le.mpr high), ge_iff_le,
    if_neg above]
  rfl

theorem log2_bounds {num : Nat} (positive : num ≠ 0) :
    2 ^ num.log2 ≤ num ∧ num < 2 ^ (num.log2 + 1) :=
  ⟨Nat.log2_self_le positive, Nat.lt_log2_self⟩

theorem ofRatio_of_few_bits {num : Nat} (positive : num ≠ 0) (few : num.log2 < 52) :
    ofRatio false num 1 =
      assembled ((num.log2 : Int) - 52) (num * 2 ^ (52 - num.log2)) ∧
      num * 2 ^ (52 - num.log2) < 2 ^ 53 := by
  obtain ⟨low, high⟩ := log2_bounds positive
  have scale : scaled num 1 (-((num.log2 : Int) - 52)) = (num * 2 ^ (52 - num.log2), 1) := by
    have shift : -((num.log2 : Int) - 52) = ((52 - num.log2 : Nat) : Int) := by omega
    rw [shift, scaled_natCast]
  have least : 2 ^ 52 ≤ num * 2 ^ (52 - num.log2) := by
    calc 2 ^ 52 = 2 ^ num.log2 * 2 ^ (52 - num.log2) := by
          rw [← Nat.pow_add]
          congr 1
          omega
      _ ≤ num * 2 ^ (52 - num.log2) := Nat.mul_le_mul_right _ low
  have most : num * 2 ^ (52 - num.log2) < 2 ^ 53 := by
    calc num * 2 ^ (52 - num.log2) < 2 ^ (num.log2 + 1) * 2 ^ (52 - num.log2) :=
          Nat.mul_lt_mul_of_pos_right high (Nat.two_pow_pos _)
      _ = 2 ^ 53 := by
          rw [← Nat.pow_add]
          congr 1
          omega
  have whole := ofRatio_of_guess positive scale (by rwa [Nat.div_one]) (by rwa [Nat.div_one])
  rw [roundQuotient_one] at whole
  exact ⟨whole, most⟩

theorem ofRatio_of_many_bits {num k : Nat} (bits : num.log2 = k + 52) :
    ofRatio false num 1 = assembled k (roundQuotient num (2 ^ k)) ∧
      2 ^ 52 ≤ num / 2 ^ k ∧ num / 2 ^ k < 2 ^ 53 := by
  have positive : num ≠ 0 := by
    rintro rfl
    have zero : (0 : Nat).log2 = 0 := by decide
    omega
  obtain ⟨low, high⟩ := log2_bounds positive
  have exponent : (num.log2 : Int) - 52 = k := by omega
  have scale : scaled num 1 (-((num.log2 : Int) - 52)) = (num, 2 ^ k) := by
    rw [exponent, scaled_neg, Nat.one_mul]
  have least : 2 ^ 52 ≤ num / 2 ^ k := by
    rw [Nat.le_div_iff_mul_le (Nat.two_pow_pos k), ← Nat.pow_add, Nat.add_comm, ← bits]
    exact low
  have most : num / 2 ^ k < 2 ^ 53 := by
    rw [Nat.div_lt_iff_lt_mul (Nat.two_pow_pos k), ← Nat.pow_add]
    have upper : 53 + k = num.log2 + 1 := by omega
    rw [upper]
    exact high
  have whole := ofRatio_of_guess positive scale least most
  rw [exponent] at whole
  exact ⟨whole, least, most⟩

/-- At the greatest exponent it is the rounding that decides. -/
theorem roundQuotient_carries_iff {d : Nat} (num : Nat) (most : num / (2 * d) < 2 ^ 53) (positive : 0 < d) :
    2 ^ 53 ≤ roundQuotient num (2 * d) ↔ (2 ^ 53 - 1) * (2 * d) + d ≤ num := by
  have split := Nat.div_add_mod num (2 * d)
  have below : num % (2 * d) < 2 * d := Nat.mod_lt _ (by omega)
  by_cases last : num / (2 * d) = 2 ^ 53 - 1
  · rw [last] at split
    have up : 2 ^ 53 ≤ roundQuotient num (2 * d) ↔ d ≤ num % (2 * d) := by
      have odd : ¬(2 ^ 53 - 1) % 2 = 0 := by decide
      simp only [roundQuotient, last, if_neg odd]
      generalize num % (2 * d) = left at *
      split_ifs <;> omega
    rw [up]
    omega
  · have bounds := roundQuotient_bounds num (2 * d)
    have short : 2 * d * (num / (2 * d) + 1) ≤ 2 * d * (2 ^ 53 - 1) :=
      Nat.mul_le_mul_left _ (by omega)
    rw [Nat.mul_add] at short
    constructor
    · intro carries
      omega
    · intro large
      omega

/-- An integer is in range, or is rounded to infinity. -/
theorem ofRatio_split (num : Nat) :
    num < tooLarge ∧ (ofRatio false num 1).isFinite = true ∨
      tooLarge ≤ num ∧ ofRatio false num 1 = infinity false := by
  by_cases none : num = 0
  · subst none
    exact .inl ⟨by decide +kernel, by decide⟩
  obtain ⟨low, high⟩ := log2_bounds none
  have inRange (bits : Nat) (few : num.log2 + 1 ≤ bits) (small : 2 ^ bits ≤ tooLarge) :
      num < tooLarge :=
    Nat.lt_of_lt_of_le high (Nat.le_trans (Nat.pow_le_pow_right (by omega) few) small)
  by_cases few : num.log2 < 52
  · obtain ⟨whole, most⟩ := ofRatio_of_few_bits none few
    refine .inl ⟨inRange 52 few (by decide +kernel), ?_⟩
    rw [whole]
    apply isFinite_assembled
    omega
  obtain ⟨k, bits⟩ : ∃ k, num.log2 = k + 52 := ⟨num.log2 - 52, by omega⟩
  obtain ⟨whole, least, most⟩ := ofRatio_of_many_bits bits
  obtain ⟨down, up⟩ := roundQuotient_bounds num (2 ^ k)
  rcases Nat.lt_trichotomy k 971 with small | last | large
  · refine .inl ⟨inRange 1023 (by omega) (by decide +kernel), ?_⟩
    rw [whole]
    apply isFinite_assembled
    omega
  · obtain ⟨j, rfl⟩ : ∃ j, k = j + 1 := ⟨970, last⟩
    have twice : 2 ^ (j + 1) = 2 * 2 ^ j := Nat.pow_succ'
    have carries := roundQuotient_carries_iff num (by rwa [← twice]) (Nat.two_pow_pos j)
    rw [← tooLarge_eq (k := j) (by omega), ← twice] at carries
    rw [whole]
    by_cases reached : tooLarge ≤ num
    · have full := carries.mpr reached
      refine .inr ⟨reached, assembled_eq_infinity ?_⟩
      omega
    · have short := mt carries.mp reached
      refine .inl ⟨Nat.not_le.mp reached, isFinite_assembled ?_⟩
      omega
  · right
    constructor
    · exact Nat.le_trans (tooLarge_le rfl (by omega)) low
    · rw [whole]
      apply assembled_eq_infinity
      omega

theorem ofDecimal_split (value : Nat) :
    value < tooLarge ∧ (ofDecimal value 0).isFinite = true ∨
      tooLarge ≤ value ∧ ofDecimal value 0 = infinity false := by
  by_cases none : value = 0
  · subst none
    exact .inl ⟨by decide +kernel, by decide⟩
  rw [ofDecimal, if_neg none]
  dsimp only
  by_cases long : (0 : Int) + (Nat.toDigits 10 value).length > 310
  · rw [if_pos long]
    refine .inr ⟨?_, rfl⟩
    by_contra short
    have few : (Nat.toDigits 10 value).length ≤ 310 := by
      apply Nat.toDigits_length 10 value 310 (by omega)
      exact Nat.lt_trans (Nat.not_le.mp short) (by decide +kernel)
    omega
  · have size : ¬(0 : Int) + (Nat.toDigits 10 value).length < -330 := by omega
    rw [if_neg long, if_neg size, if_pos (Int.le_refl 0), Int.toNat_zero, Nat.pow_zero, Nat.mul_one]
    exact ofRatio_split value

end UnitForge.Binary64
