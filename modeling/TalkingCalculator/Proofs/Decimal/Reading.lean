import TalkingCalculator.Decimal.Reading
import TalkingCalculator.Proofs.Binary.Arithmetic
import TalkingCalculator.Proofs.Binary.Nearest

/-!
# Decimals read as the nearest double

Reading depends on the number that a decimal stands for only, not on how it is written: with whatever zeros
and whatever exponent, the double is the one nearest to the number.
-/
namespace TalkingCalculator

open Float.Model (Format UnpackedFloat)
open Float.Model.UnpackedFloat

namespace Decimal

def value (d : Decimal) : ℚ :=
  d.digits * 10 ^ d.exponent

theorem value_nonneg (d : Decimal) : 0 ≤ d.value := by
  unfold value
  positivity

theorem value_zero (e : ℤ) : value ⟨0, e⟩ = 0 := by
  simp [value]

/-- Beyond the exponents for which powers of ten are taken at all, a decimal overflows. -/
theorem overflow_le_value {d : Decimal} (hpos : 0 < d.digits) (he : 2 ^ 11 < d.exponent) :
    2 ^ 1024 - 2 ^ 970 ≤ d.value := by
  have hone : (1 : ℚ) ≤ d.digits := by exact_mod_cast hpos
  have hten : (10 : ℚ) ^ (1024 : ℤ) ≤ 10 ^ d.exponent := zpow_le_zpow_right₀ (by norm_num) (by omega)
  calc (2 : ℚ) ^ 1024 - 2 ^ 970 ≤ 2 ^ 1024 := sub_le_self _ (pow_nonneg two_pos.le 970)
    _ ≤ 10 ^ 1024 := pow_le_pow_left₀ two_pos.le (by norm_num) 1024
    _ ≤ 10 ^ d.exponent := hten
    _ ≤ d.value := le_mul_of_one_le_left (by positivity) hone

theorem value_lt_underflow {d : Decimal} (he : d.exponent < -(2 ^ 11 + d.digits.log2)) :
    d.value < 2 ^ (-1075 : ℤ) := by
  have hlog : (d.digits : ℚ) < 2 ^ (d.digits.log2 + 1 : ℤ) := by exact_mod_cast Nat.lt_log2_self
  have hten : (10 : ℚ) ^ d.exponent ≤ 2 ^ d.exponent := by
    obtain ⟨n, hn⟩ := Int.eq_ofNat_of_zero_le (by omega : 0 ≤ -d.exponent)
    rw [show d.exponent = -(n : ℤ) by omega, zpow_neg, zpow_neg, zpow_natCast, zpow_natCast]
    exact inv_anti₀ (by positivity) (pow_le_pow_left₀ two_pos.le (by norm_num) n)
  calc d.value ≤ d.digits * 2 ^ d.exponent := mul_le_mul_of_nonneg_left hten (by positivity)
    _ < 2 ^ (d.digits.log2 + 1 : ℤ) * 2 ^ d.exponent := mul_lt_mul_of_pos_right hlog (zpow_pos two_pos _)
    _ = 2 ^ (d.digits.log2 + 1 + d.exponent : ℤ) := (zpow_add₀ two_ne_zero _ _).symm
    _ ≤ 2 ^ (-1075 : ℤ) := zpow_le_zpow_right₀ one_le_two (by omega)

/-- A whole number is the product of its digits, with as many places as a mantissa has, and a power of ten. -/
theorem ofUnpacked_mul_pow {m : ℕ} (n : ℕ) (hm : 0 < m) {h₁ : 0 < m <<< 53} {h₂ : 0 < 10 ^ n} :
    Binary.ofUnpacked (UnpackedFloat.mul Format.binary64 (.finite .positive (m <<< 53) (-53) h₁)
      (.finite .positive (10 ^ n) 0 h₂)) = Binary.nearest .positive (value ⟨m, n⟩) := by
  have hfull : 2 ^ 52 ≤ m <<< 53 * 10 ^ n := by
    rw [Nat.shiftLeft_eq]
    have : 2 ^ 53 ≤ m * 2 ^ 53 := Nat.le_mul_of_pos_left _ hm
    have : m * 2 ^ 53 ≤ m * 2 ^ 53 * 10 ^ n := Nat.le_mul_of_pos_right _ (by positivity)
    omega
  refine (Binary.mul_finite (Binary.le_scale_of_full hfull)).trans ?_
  congr 1
  rw [Nat.shiftLeft_eq]
  unfold value
  simp only [zpow_natCast, zpow_neg, zpow_zero, Nat.cast_mul, Nat.cast_pow, Nat.cast_ofNat, mul_one]
  field_simp

/-- A number with places is the quotient of its digits and a power of ten. -/
theorem ofUnpacked_div_pow {m : ℕ} (n : ℕ) {h₁ : 0 < m} {h₂ : 0 < 10 ^ n} :
    Binary.ofUnpacked (UnpackedFloat.div Format.binary64 (.finite .positive m 0 h₁)
      (.finite .positive (10 ^ n) 0 h₂)) = Binary.nearest .positive (value ⟨m, -n⟩) := by
  refine Binary.div_finite.trans ?_
  congr 1
  unfold value
  rw [zpow_neg, zpow_natCast]
  push_cast
  rw [mul_one, mul_one, div_eq_mul_inv]

/-- However a decimal is scaled, it is rounded once. -/
theorem toFloat_eq (d : Decimal) : d.toFloat = Binary.nearest .positive d.value := by
  obtain ⟨m, e⟩ := d
  change Binary.ofUnpacked (ofScientific Format.binary64 m e) = _
  unfold ofScientific
  by_cases hzero : m = 0
  · subst hzero
    rw [dif_pos rfl, value_zero, Binary.nearest_zero]
  have hpos : 0 < m := Nat.pos_of_ne_zero hzero
  rw [dif_neg hzero]
  by_cases hhuge : e > 2 ^ 11
  · rw [if_pos hhuge, Binary.nearest_of_overflow (overflow_le_value (d := ⟨m, e⟩) hpos hhuge)]
  rw [if_neg hhuge]
  by_cases htiny : e < -((2 ^ 11 : ℤ) + m.log2)
  · rw [if_pos htiny, Binary.nearest_of_underflow (value_nonneg _) (value_lt_underflow (d := ⟨m, e⟩) htiny)]
  rw [if_neg htiny]
  by_cases hwhole : 0 ≤ e
  · obtain ⟨n, rfl⟩ := Int.eq_ofNat_of_zero_le hwhole
    rw [if_pos hwhole]
    exact ofUnpacked_mul_pow n hpos
  · obtain ⟨n, hn⟩ := Int.eq_ofNat_of_zero_le (by omega : 0 ≤ -e)
    have he : e = -(n : ℤ) := by omega
    subst he
    rw [if_neg hwhole]
    simp only [neg_neg]
    exact ofUnpacked_div_pow n

/-- A decimal is read as correctly rounded. -/
theorem isCorrectlyRounded_toFloat (d : Decimal) : IsCorrectlyRounded d.value d.toFloat := by
  rw [toFloat_eq]
  exact Binary.isCorrectlyRounded_nearest d.value_nonneg

end Decimal

end TalkingCalculator
