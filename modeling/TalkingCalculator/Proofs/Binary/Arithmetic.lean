import TalkingCalculator.Proofs.Binary.Shifting

/-!
# Products and quotients

A product or a quotient of doubles is the double nearest to the exact one. The mantissas need not be
canonical, since decimals are read through both operations with mantissas of any size.
-/
namespace TalkingCalculator

open Float.Model (Format UnpackedFloat totalExponent)
open Float.Model.UnpackedFloat

namespace Binary

theorem le_scale_of_le {m : ℕ} {e : ℤ} (he : e ≤ -1074) : e ≤ scale m e :=
  he.trans (le_max_right _ _)

theorem le_scale_of_full {m : ℕ} {e : ℤ} (hm : 2 ^ 52 ≤ m) : e ≤ scale m e := by
  have : 52 ≤ m.log2 := (Nat.le_log2 (by omega)).mpr hm
  unfold scale
  omega

variable {s₁ s₂ : Sign} {m₁ m₂ : ℕ} {e₁ e₂ : ℤ} {h₁ : 0 < m₁} {h₂ : 0 < m₂}

theorem mul_finite (he : e₁ + e₂ ≤ scale (m₁ * m₂) (e₁ + e₂)) :
    ofUnpacked (UnpackedFloat.mul Format.binary64 (.finite s₁ m₁ e₁ h₁) (.finite s₂ m₂ e₂ h₂)) =
      nearest (s₁ * s₂) (m₁ * 2 ^ e₁ * (m₂ * 2 ^ e₂)) := by
  have hround := roundWithAccuracy_eq (s := s₁ * s₂) (Nat.mul_pos h₁ h₂) one_pos
    (e := e₁ + e₂) (by rwa [Nat.div_one])
  rw [Nat.div_one, Nat.mod_one] at hround
  refine hround.trans ?_
  congr 1
  rw [zpow_add₀ two_ne_zero]
  push_cast
  ring

/-- The exponent to which a quotient is taken leaves enough places in its whole part. -/
theorem le_scale_quotient {t : ℤ} (h₁ : 0 < m₁) (h₂ : 0 < m₂)
    (ht : t = min (e₁ - e₂) (max (m₁.log2 + e₁ - (m₂.log2 + e₂) - 53) (-1074))) :
    t ≤ scale (m₁ * 2 ^ (e₁ - e₂ - t).toNat / m₂) t := by
  by_cases hmin : t ≤ -1074
  · exact le_scale_of_le hmin
  · apply le_scale_of_full
    generalize hk : (e₁ - e₂ - t).toNat = k
    have hlog : 53 + m₂.log2 ≤ m₁.log2 + k := by omega
    have hlow : 2 ^ m₁.log2 ≤ m₁ := Nat.log2_self_le h₁.ne'
    have hhigh : m₂ < 2 ^ (m₂.log2 + 1) := Nat.lt_log2_self
    rw [Nat.le_div_iff_mul_le h₂]
    calc 2 ^ 52 * m₂ ≤ 2 ^ 52 * 2 ^ (m₂.log2 + 1) := Nat.mul_le_mul_left _ hhigh.le
      _ = 2 ^ (53 + m₂.log2) := by rw [← pow_add]; congr 1; omega
      _ ≤ 2 ^ (m₁.log2 + k) := Nat.pow_le_pow_right two_pos hlog
      _ = 2 ^ m₁.log2 * 2 ^ k := pow_add _ _ _
      _ ≤ m₁ * 2 ^ k := Nat.mul_le_mul_right _ hlow

theorem div_finite :
    ofUnpacked (UnpackedFloat.div Format.binary64 (.finite s₁ m₁ e₁ h₁) (.finite s₂ m₂ e₂ h₂)) =
      nearest (s₁ / s₂) (m₁ * 2 ^ e₁ / (m₂ * 2 ^ e₂)) := by
  simp only [UnpackedFloat.div, divCore]
  generalize ht : min (e₁ - e₂) (Format.binary64.targetExponent
    (totalExponent m₁ e₁ - totalExponent m₂ e₂)) = t
  have ht' : t = min (e₁ - e₂) (max (m₁.log2 + e₁ - (m₂.log2 + e₂) - 53) (-1074)) := by
    rw [← ht, show m₁.log2 + e₁ - (m₂.log2 + e₂) = totalExponent m₁ e₁ - totalExponent m₂ e₂ by
      unfold totalExponent; ring]
    rfl
  have hpos : 0 < m₁ * 2 ^ (e₁ - e₂ - t).toNat := Nat.mul_pos h₁ (Nat.two_pow_pos _)
  have hexponent : ((e₁ - e₂ - t).toNat : ℤ) = e₁ - e₂ - t := by omega
  rw [Nat.shiftLeft_eq, roundWithAccuracy_eq hpos h₂ (le_scale_quotient h₁ h₂ ht')]
  congr 1
  push_cast
  rw [← zpow_natCast, hexponent, zpow_sub₀ two_ne_zero, zpow_sub₀ two_ne_zero]
  field_simp

end Binary

end TalkingCalculator
