import TalkingCalculator.Proofs.Binary.Difference

/-!
# Order

Finite doubles compare as the numbers that they stand for. The comparison looks at the exponents first, which is enough
because a mantissa that is not full belongs to the least exponent.
-/
namespace TalkingCalculator

open Float.Model (Format UnpackedFloat)
open Float.Model.UnpackedFloat

namespace Binary

variable {m₁ m₂ : ℕ} {e₁ e₂ : ℤ} {x y : Float}

theorem magnitude_lt (hc₁ : Canonical m₁ e₁) (hc₂ : Canonical m₂ e₂) (hlt : e₁ < e₂) :
    (m₁ : ℚ) * 2 ^ e₁ < m₂ * 2 ^ e₂ := by
  have hle := hc₁.le_exponent
  have hfull : (2 : ℚ) ^ (52 : ℤ) ≤ m₂ := by exact_mod_cast hc₂.full.resolve_right (by omega)
  calc (m₁ : ℚ) * 2 ^ e₁ < 2 ^ (53 + e₁) := apply_mul_lt .positive hc₁
    _ ≤ 2 ^ (52 + e₂) := zpow_le_zpow_right₀ one_le_two (by omega)
    _ = 2 ^ (52 : ℤ) * 2 ^ e₂ := zpow_add₀ two_ne_zero _ _
    _ ≤ m₂ * 2 ^ e₂ := mul_le_mul_of_nonneg_right hfull (zpow_nonneg two_pos.le e₂)

theorem compare_magnitude (hc₁ : Canonical m₁ e₁) (hc₂ : Canonical m₂ e₂) :
    (compare e₁ e₂).then (compare m₁ m₂) = compare ((m₁ : ℚ) * 2 ^ e₁) (m₂ * 2 ^ e₂) := by
  rcases lt_trichotomy e₁ e₂ with hlt | rfl | hgt
  · rw [compare_lt_iff_lt.mpr hlt, compare_lt_iff_lt.mpr (magnitude_lt hc₁ hc₂ hlt)]
    rfl
  · have hpow : (0 : ℚ) < 2 ^ e₁ := zpow_pos two_pos e₁
    rw [compare_eq_iff_eq.mpr rfl, Ordering.eq_then]
    rcases lt_trichotomy m₁ m₂ with hlt | rfl | hgt
    · rw [compare_lt_iff_lt.mpr hlt, compare_lt_iff_lt.mpr]
      exact mul_lt_mul_of_pos_right (Nat.cast_lt.mpr hlt) hpow
    · rw [compare_eq_iff_eq.mpr rfl, compare_eq_iff_eq.mpr rfl]
    · rw [compare_gt_iff_gt.mpr hgt, compare_gt_iff_gt.mpr]
      exact mul_lt_mul_of_pos_right (Nat.cast_lt.mpr hgt) hpow
  · rw [compare_gt_iff_gt.mpr hgt, compare_gt_iff_gt.mpr (magnitude_lt hc₂ hc₁ hgt)]
    rfl

theorem compare_neg_magnitude (p q : ℚ) : compare (-p) (-q) = (compare p q).swap := by
  rcases lt_trichotomy p q with hlt | rfl | hgt
  · rw [compare_lt_iff_lt.mpr hlt, compare_gt_iff_gt.mpr (neg_lt_neg hlt)]
    rfl
  · rw [compare_eq_iff_eq.mpr rfl, compare_eq_iff_eq.mpr rfl]
    rfl
  · rw [compare_gt_iff_gt.mpr hgt, compare_lt_iff_lt.mpr (neg_lt_neg hgt)]
    rfl

theorem compare_eq_exactValue (hx : x.isFinite = true) (hy : y.isFinite = true) :
    x.toModel.unpack.compare y.toModel.unpack = some (compare (exactValue x) (exactValue y)) := by
  rcases eq_ofUnpacked_of_isFinite hx with ⟨s₁, rfl⟩ | ⟨s₁, m₁, e₁, h₁, hc₁, rfl⟩ <;>
    rcases eq_ofUnpacked_of_isFinite hy with ⟨s₂, rfl⟩ | ⟨s₂, m₂, e₂, h₂, hc₂, rfl⟩
  · rw [unpack_ofUnpacked_zero, unpack_ofUnpacked_zero, exactValue_zero, exactValue_zero, compare_eq_iff_eq.mpr rfl]
    rfl
  · have hpos : (0 : ℚ) < m₂ * 2 ^ e₂ := by positivity
    rw [unpack_ofUnpacked_zero, unpack_ofUnpacked_finite hc₂, exactValue_zero, exactValue_finite hc₂]
    cases s₂ with
    | positive =>
      rw [compare_lt_iff_lt.mpr (by simpa [Sign.apply] using hpos)]
      rfl
    | negative =>
      rw [compare_gt_iff_gt.mpr (by simpa [Sign.apply] using hpos)]
      rfl
  · have hpos : (0 : ℚ) < m₁ * 2 ^ e₁ := by positivity
    rw [unpack_ofUnpacked_zero, unpack_ofUnpacked_finite hc₁, exactValue_zero, exactValue_finite hc₁]
    cases s₁ with
    | positive =>
      rw [compare_gt_iff_gt.mpr (by simpa [Sign.apply] using hpos)]
      rfl
    | negative =>
      rw [compare_lt_iff_lt.mpr (by simpa [Sign.apply] using hpos)]
      rfl
  · have hpos₁ : (0 : ℚ) < m₁ * 2 ^ e₁ := by positivity
    have hpos₂ : (0 : ℚ) < m₂ * 2 ^ e₂ := by positivity
    rw [unpack_ofUnpacked_finite hc₁, unpack_ofUnpacked_finite hc₂, exactValue_finite hc₁, exactValue_finite hc₂]
    cases s₁ <;> cases s₂ <;> simp only [Sign.apply, Int.cast_neg, Int.cast_natCast, neg_mul]
    · rw [compare_neg_magnitude, ← compare_magnitude hc₁ hc₂]
      rfl
    · rw [compare_lt_iff_lt.mpr (by linarith)]
      rfl
    · rw [compare_gt_iff_gt.mpr (by linarith)]
      rfl
    · rw [← compare_magnitude hc₁ hc₂]
      rfl

theorem le_iff_exactValue (hx : x.isFinite = true) (hy : y.isFinite = true) : x ≤ y ↔ exactValue x ≤ exactValue y := by
  rw [le_iff, UnpackedFloat.le, compare_eq_exactValue hx hy]
  exact Ordering.isLE_iff_ne_gt.trans compare_le_iff_le

theorem lt_iff_exactValue (hx : x.isFinite = true) (hy : y.isFinite = true) : x < y ↔ exactValue x < exactValue y := by
  rw [lt_iff, UnpackedFloat.lt, compare_eq_exactValue hx hy]
  exact beq_iff_eq.trans ((Option.some_inj).trans compare_lt_iff_lt)

theorem not_lt_iff_le (hx : x.isFinite = true) (hy : y.isFinite = true) : ¬ y < x ↔ x ≤ y := by
  rw [lt_iff_exactValue hy hx, le_iff_exactValue hx hy, not_lt]

end Binary

end TalkingCalculator
