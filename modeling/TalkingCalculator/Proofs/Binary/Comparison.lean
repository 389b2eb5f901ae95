import TalkingCalculator.Proofs.Binary.Arithmetic
import TalkingCalculator.Proofs.Binary.Nearest

/-!
# Comparison with zero

The sign of a finite double other than zero tells on which side of zero it lies, and twice such a double is not
zero.
-/
namespace TalkingCalculator

open Float.Model (Format UnpackedFloat)
open Float.Model.UnpackedFloat

namespace Binary

theorem lt_iff {x y : Float} : x < y ↔ x.toModel.unpack.lt y.toModel.unpack = true :=
  decide_eq_true_iff

variable {s : Sign} {m : ℕ} {e : ℤ} {h : 0 < m}

theorem zero_lt_finite_iff (hc : Canonical m e) : 0.0 < ofUnpacked (.finite s m e h) ↔ s = .positive := by
  rw [lt_iff, unpack_ofUnpacked_finite hc]
  cases s with
  | positive => exact iff_of_true rfl rfl
  | negative => exact iff_of_false Bool.false_ne_true nofun

theorem finite_lt_zero_iff (hc : Canonical m e) : ofUnpacked (.finite s m e h) < 0.0 ↔ s = .negative := by
  rw [lt_iff, unpack_ofUnpacked_finite hc]
  cases s with
  | positive => exact iff_of_false Bool.false_ne_true nofun
  | negative => exact iff_of_true rfl rfl

theorem finite_beq_zero (hc : Canonical m e) : (ofUnpacked (.finite s m e h) == 0.0) = false := by
  change (ofUnpacked (.finite s m e h)).toModel.unpack.beq _ = false
  rw [unpack_ofUnpacked_finite hc]
  cases s <;> rfl

/-- A finite double lies above zero, is zero, or lies below zero, and then its opposite does not. -/
theorem sign_cases {x : Float} (hx : x.isFinite = true) :
    0.0 < x ∧ ¬ x < 0.0 ∨ ¬ 0.0 < x ∧ (x == 0.0) = true ∨ ¬ 0.0 < x ∧ (x == 0.0) = false ∧ ¬ -x < 0.0 := by
  rcases eq_ofUnpacked_of_isFinite hx with ⟨s, rfl⟩ | ⟨s, m, e, h, hc, rfl⟩
  · right
    left
    cases s <;> decide
  · cases s with
    | positive =>
      left
      exact ⟨(zero_lt_finite_iff hc).mpr rfl, mt (finite_lt_zero_iff hc).mp nofun⟩
    | negative =>
      right
      right
      refine ⟨mt (zero_lt_finite_iff hc).mp nofun, finite_beq_zero hc, ?_⟩
      rw [neg_ofUnpacked_finite hc]
      exact mt (finite_lt_zero_iff hc).mp nofun

/-- From the smallest double on, numbers do not round to zero. -/
theorem nearest_beq_zero {x : ℚ} (hx : 2 ^ (-1074 : ℤ) ≤ x) : (nearest s x == 0.0) = false := by
  by_cases hover : 2 ^ 1024 - 2 ^ 970 ≤ x
  · rw [nearest_of_overflow hover]
    cases s <;> decide
  have hpos : 0 < x := lt_of_lt_of_le (zpow_pos two_pos _) hx
  have ht := IsScale.of_log hpos
  obtain ⟨q, hq⟩ := exists_isNearestEven (div_nonneg hpos.le (zpow_nonneg two_pos.le _))
  have hone : 1 ≤ q := by
    refine hq.le_of_le ?_
    rcases ht.le_units with hfull | hmin
    · exact le_trans (by norm_num) hfull
    · rw [hmin, le_div_iff₀ (zpow_pos two_pos _)]
      simpa using hx
  rw [nearest_eq hpos ht hq]
  rcases settle_cases (s := s) ht hq (not_le.mp hover) with ⟨-, hzero⟩ | ⟨m, e, h, hsettle, hc, -⟩
  · omega
  · rw [hsettle]
    exact finite_beq_zero hc

theorem two_mul_finite_beq_zero (hc : Canonical m e) : (2.0 * ofUnpacked (.finite s m e h) == 0.0) = false := by
  have hproduct : 2.0 * ofUnpacked (.finite s m e h) = ofUnpacked (UnpackedFloat.mul Format.binary64
      (.finite .positive (2 ^ 52) (-51) (by norm_num)) (.finite s m e h)) := by
    change ofUnpacked (UnpackedFloat.mul Format.binary64 _ (ofUnpacked (.finite s m e h)).toModel.unpack) = _
    rw [unpack_ofUnpacked_finite hc]
    rfl
  rw [hproduct, mul_finite]
  · refine nearest_beq_zero ?_
    have hm : (1 : ℚ) ≤ m := by exact_mod_cast h
    calc (2 : ℚ) ^ (-1074 : ℤ) ≤ 2 ^ e := zpow_le_zpow_right₀ one_le_two hc.le_exponent
      _ ≤ m * 2 ^ e := le_mul_of_one_le_left (zpow_nonneg two_pos.le e) hm
      _ ≤ ((2 ^ 52 : ℕ) : ℚ) * 2 ^ (-51 : ℤ) * (m * 2 ^ e) := le_mul_of_one_le_left (by positivity) (by norm_num)
  · exact le_scale_of_full (Nat.le_mul_of_pos_right _ h)

theorem two_mul_beq_zero {x : Float} (hx : x.isFinite = true) (hzero : (x == 0.0) = false) :
    (2.0 * x == 0.0) = false := by
  rcases eq_ofUnpacked_of_isFinite hx with ⟨s, rfl⟩ | ⟨s, m, e, h, hc, rfl⟩
  · cases s <;> cases hzero
  · exact two_mul_finite_beq_zero hc

end Binary

end TalkingCalculator
