import TalkingCalculator.Proofs.Binary.Signs

/-!
# Differences

A difference of doubles is the double nearest to the exact one. Doubles stand on one grid, so that the exact
difference is zero or not smaller than the smallest double, and it never rounds to zero or across it: two doubles
compare as their difference compares with zero.
-/
namespace TalkingCalculator

open Float.Model (Format UnpackedFloat totalExponent)
open Float.Model.UnpackedFloat

namespace Binary

variable {s s₁ s₂ : Sign} {m m₁ m₂ : ℕ} {e e₁ e₂ : ℤ} {h : 0 < m} {h₁ : 0 < m₁} {h₂ : 0 < m₂} {x y : Float}

theorem log2_mul_two_pow (hm : 0 < m) (k : ℕ) : (m * 2 ^ k).log2 = m.log2 + k := by
  have hlow := Nat.log2_self_le hm.ne'
  have hhigh := Nat.lt_log2_self (n := m)
  refine (Nat.log2_eq_iff (by positivity)).mpr ⟨?_, ?_⟩
  · rw [pow_add]
    exact Nat.mul_le_mul_right _ hlow
  · rw [show m.log2 + k + 1 = m.log2 + 1 + k by omega, pow_add]
    exact Nat.mul_lt_mul_of_pos_right hhigh (by positivity)

/-- Places are put in where the scale of the number needs them, and then cut off where it has none. -/
theorem round_eq (hm : 0 < m) (e : ℤ) :
    ofUnpacked (UnpackedFloat.round Format.binary64 s m e) = nearest s (m * 2 ^ e) := by
  change ofUnpacked (roundWithAccuracy Format.binary64 s (m <<< (e - scale m e).toNat)
    (e - (e - scale m e).toNat) .exact) = _
  generalize hk : (e - scale m e).toNat = k
  rw [Nat.shiftLeft_eq]
  have hscale : e - k ≤ scale (m * 2 ^ k) (e - k) := by
    unfold scale at hk ⊢
    rw [log2_mul_two_pow hm]
    push_cast
    omega
  have hround := roundWithAccuracy_eq (s := s) (by positivity : 0 < m * 2 ^ k) one_pos (e := e - k)
    (by rwa [Nat.div_one])
  rw [Nat.div_one, Nat.mod_one] at hround
  refine hround.trans ?_
  congr 1
  push_cast
  rw [div_one, mul_assoc, ← zpow_natCast, ← zpow_add₀ two_ne_zero, add_sub_cancel]

def signOf (k : ℤ) : Sign :=
  if k < 0 then .negative else .positive

theorem normalize_eq {k : ℤ} (hk : k ≠ 0) (e : ℤ) (z : Sign) :
    ofUnpacked (UnpackedFloat.normalize Format.binary64 k e z) = nearest (signOf k) (|(k : ℚ)| * 2 ^ e) := by
  unfold UnpackedFloat.normalize signOf
  rcases lt_trichotomy k 0 with hneg | hzero | hpos
  · obtain ⟨n, hn⟩ := Int.eq_ofNat_of_zero_le (by omega : 0 ≤ -k)
    obtain rfl : k = -(n : ℤ) := by omega
    rw [show compare (-(n : ℤ)) 0 = .lt from compare_lt_iff_lt.mpr hneg, if_pos hneg]
    simp only [neg_neg, Int.toNat_natCast]
    rw [round_eq (by omega)]
    simp
  · exact absurd hzero hk
  · obtain ⟨n, rfl⟩ := Int.eq_ofNat_of_zero_le hpos.le
    rw [show compare (n : ℤ) 0 = .gt from compare_gt_iff_gt.mpr hpos, if_neg (by omega)]
    simp only [Int.toNat_natCast]
    rw [round_eq (by omega)]
    simp

theorem sign?_nearest (s : Sign) (x : ℚ) : sign? (nearest s x) = some s := by
  refine (sign?_ofUnpacked _).trans ?_
  unfold settle assemble
  split <;> split <;> rfl

/-- A whole number of smallest doubles compares with zero as it does when it is rounded. -/
theorem normalize_compare (k : ℤ) (he : -1074 ≤ e) (z : Sign) :
    (0.0 < ofUnpacked (UnpackedFloat.normalize Format.binary64 k e z) ↔ 0 < k) ∧
      ((ofUnpacked (UnpackedFloat.normalize Format.binary64 k e z) == 0.0) = true ↔ k = 0) := by
  by_cases hk : k = 0
  · subst hk
    rw [show UnpackedFloat.normalize Format.binary64 0 e z = .zero z from rfl]
    cases z <;> decide
  have hone : (1 : ℚ) ≤ |(k : ℚ)| := by exact_mod_cast Int.one_le_abs hk
  have hsmallest : (2 : ℚ) ^ (-1074 : ℤ) ≤ |(k : ℚ)| * 2 ^ e :=
    (zpow_le_zpow_right₀ one_le_two he).trans (le_mul_of_one_le_left (zpow_nonneg two_pos.le e) hone)
  have hzero := nearest_beq_zero (s := signOf k) hsmallest
  rw [normalize_eq hk, zero_lt_iff, sign?_nearest, hzero]
  refine ⟨?_, iff_of_false Bool.false_ne_true hk⟩
  unfold signOf
  split
  · exact iff_of_false nofun (by omega)
  · exact iff_of_true ⟨rfl, rfl⟩ (by omega)

/-- Places put in after a mantissa do not change the number. -/
theorem apply_shiftLeft (s : Sign) (m : ℕ) {t : ℤ} (ht : t ≤ e) :
    ((s.apply (m <<< (e - t).toNat : ℕ) : ℤ) : ℚ) * 2 ^ t = (s.apply m : ℤ) * 2 ^ e := by
  have hexponent : ((e - t).toNat : ℤ) + t = e := by omega
  have hshift : ((m <<< (e - t).toNat : ℕ) : ℚ) * 2 ^ t = m * 2 ^ e := by
    rw [Nat.shiftLeft_eq]
    push_cast
    rw [mul_assoc, ← zpow_natCast, ← zpow_add₀ two_ne_zero, hexponent]
  cases s <;> simp only [Sign.apply, Int.cast_neg, Int.cast_natCast, neg_mul, hshift]

theorem sub_eq_ofUnpacked (x y : Float) :
    x - y = ofUnpacked (UnpackedFloat.sub Format.binary64 x.toModel.unpack y.toModel.unpack) :=
  rfl

/-- On the grid of the smaller exponent the difference is exact. -/
theorem sub_finite (s₁ s₂ : Sign) (h₁ : 0 < m₁) (h₂ : 0 < m₂) (hc₁ : Canonical m₁ e₁) (hc₂ : Canonical m₂ e₂) :
    ∃ k : ℤ, ofUnpacked (.finite s₁ m₁ e₁ h₁) - ofUnpacked (.finite s₂ m₂ e₂ h₂) =
        ofUnpacked (UnpackedFloat.normalize Format.binary64 k (min e₁ e₂) .positive) ∧
      (k : ℚ) * 2 ^ min e₁ e₂ = (s₁.apply m₁ : ℤ) * 2 ^ e₁ - (s₂.apply m₂ : ℤ) * 2 ^ e₂ := by
  refine ⟨s₁.apply (m₁ <<< (e₁ - min e₁ e₂).toNat : ℕ) - s₂.apply (m₂ <<< (e₂ - min e₁ e₂).toNat : ℕ), ?_, ?_⟩
  · rw [sub_eq_ofUnpacked, unpack_ofUnpacked_finite hc₁, unpack_ofUnpacked_finite hc₂]
    rfl
  · rw [Int.cast_sub, sub_mul, apply_shiftLeft s₁ m₁ (min_le_left _ _), apply_shiftLeft s₂ m₂ (min_le_right _ _)]

theorem isFinite_neg (hx : x.isFinite = true) : (-x).isFinite = true := by
  rcases eq_ofUnpacked_of_isFinite hx with ⟨s, rfl⟩ | ⟨s, m, e, h, hc, rfl⟩
  · cases s <;> rfl
  · rw [neg_ofUnpacked_finite hc]
    exact isFinite_ofUnpacked_finite hc

theorem exactValue_neg (hx : x.isFinite = true) : exactValue (-x) = -exactValue x := by
  rcases eq_ofUnpacked_of_isFinite hx with ⟨s, rfl⟩ | ⟨s, m, e, h, hc, rfl⟩
  · cases s <;> decide
  · rw [neg_ofUnpacked_finite hc, exactValue_finite hc, exactValue_finite hc]
    cases s
    · change ((m : ℤ) : ℚ) * 2 ^ e = -(((-m : ℤ) : ℚ) * 2 ^ e)
      rw [Int.cast_neg, neg_mul, neg_neg]
    · change ((-m : ℤ) : ℚ) * 2 ^ e = -(((m : ℤ) : ℚ) * 2 ^ e)
      rw [Int.cast_neg, neg_mul]

/-- A finite double compares with zero as the number that it stands for. -/
theorem compare_zero (hx : x.isFinite = true) :
    (0.0 < x ↔ 0 < exactValue x) ∧ ((x == 0.0) = true ↔ exactValue x = 0) := by
  rcases eq_ofUnpacked_of_isFinite hx with ⟨s, rfl⟩ | ⟨s, m, e, h, hc, rfl⟩
  · rw [exactValue_zero]
    cases s <;> decide
  · have hpow : (0 : ℚ) < 2 ^ e := zpow_pos two_pos e
    rw [zero_lt_finite_iff hc, finite_beq_zero hc, exactValue_finite hc, mul_pos_iff_of_pos_right hpow, Int.cast_pos]
    refine ⟨?_, iff_of_false Bool.false_ne_true (apply_mul_ne_zero s h e)⟩
    cases s with
    | positive => exact iff_of_true rfl (Int.natCast_pos.mpr h)
    | negative => exact iff_of_false nofun (by simp [Sign.apply])

/-- The opposite of a finite double that is neither above zero nor zero is above zero. -/
theorem zero_lt_neg (hx : x.isFinite = true) (hpos : ¬ 0.0 < x) (hzero : ¬ (x == 0.0) = true) : 0.0 < -x := by
  obtain ⟨hpos', hzero'⟩ := compare_zero hx
  have hlt : exactValue x < 0 := lt_of_le_of_ne (not_lt.mp (mt hpos'.mpr hpos)) (mt hzero'.mpr hzero)
  rw [(compare_zero (isFinite_neg hx)).1, exactValue_neg hx]
  exact neg_pos.mpr hlt

theorem zero_sub_finite (hc : Canonical m e) :
    ofUnpacked (.zero t) - ofUnpacked (.finite s m e h) = -ofUnpacked (.finite s m e h) := by
  rw [sub_eq_ofUnpacked, neg_ofUnpacked_finite hc, unpack_ofUnpacked_zero, unpack_ofUnpacked_finite hc]
  rfl

theorem finite_sub_zero (hc : Canonical m e) :
    ofUnpacked (.finite s m e h) - ofUnpacked (.zero t) = ofUnpacked (.finite s m e h) := by
  rw [sub_eq_ofUnpacked, unpack_ofUnpacked_zero, unpack_ofUnpacked_finite hc]
  rfl

/-- What is infinite or NaN stays so when it is packed. -/
theorem isFinite_of_isFinite_ofUnpacked {u : UnpackedFloat} (hu : (ofUnpacked u).isFinite = true) :
    u.isFinite = true := by
  cases u with
  | notANumber => exact absurd hu (by decide)
  | infinity s => cases s <;> exact absurd hu (by decide)
  | zero s | finite s m e h => rfl

theorem isFinite_of_sub (hxy : (x - y).isFinite = true) : x.isFinite = true ∧ y.isFinite = true := by
  replace hxy := isFinite_of_isFinite_ofUnpacked hxy
  change x.toModel.unpack.isFinite = true ∧ y.toModel.unpack.isFinite = true
  generalize x.toModel.unpack = u at hxy ⊢
  generalize y.toModel.unpack = w at hxy ⊢
  cases u with
  | notANumber => cases hxy
  | infinity s =>
    cases w with
    | infinity t => cases s <;> cases t <;> cases hxy
    | notANumber | zero | finite => cases hxy
  | zero | finite =>
    cases w with
    | notANumber | infinity => cases hxy
    | zero | finite => exact ⟨rfl, rfl⟩

/-- Two finite doubles compare as their difference compares with zero. -/
theorem compare_sub (hx : x.isFinite = true) (hy : y.isFinite = true) :
    (0.0 < x - y ↔ exactValue y < exactValue x) ∧ ((x - y == 0.0) = true ↔ exactValue x = exactValue y) := by
  rcases eq_ofUnpacked_of_isFinite hx with ⟨s₁, rfl⟩ | ⟨s₁, m₁, e₁, h₁, hc₁, rfl⟩ <;>
    rcases eq_ofUnpacked_of_isFinite hy with ⟨s₂, rfl⟩ | ⟨s₂, m₂, e₂, h₂, hc₂, rfl⟩
  · rw [exactValue_zero, exactValue_zero]
    cases s₁ <;> cases s₂ <;> decide
  · obtain ⟨hpos, hzero⟩ := compare_zero (isFinite_neg hy)
    rw [zero_sub_finite hc₂, hpos, hzero, exactValue_neg hy, exactValue_zero, neg_pos, neg_eq_zero]
    exact ⟨Iff.rfl, eq_comm⟩
  · rw [finite_sub_zero hc₁, exactValue_zero]
    exact compare_zero hx
  · obtain ⟨k, hsub, hk⟩ := sub_finite s₁ s₂ h₁ h₂ hc₁ hc₂
    have hpow : (0 : ℚ) < 2 ^ min e₁ e₂ := zpow_pos two_pos _
    obtain ⟨hpos, hzero⟩ := normalize_compare k (le_min hc₁.le_exponent hc₂.le_exponent) .positive
    rw [exactValue_finite hc₁, exactValue_finite hc₂, hsub, hpos, hzero]
    constructor
    · rw [← sub_pos (b := ((s₂.apply m₂ : ℤ) : ℚ) * 2 ^ e₂), ← hk, mul_pos_iff_of_pos_right hpow, Int.cast_pos]
    · rw [← sub_eq_zero (b := ((s₂.apply m₂ : ℤ) : ℚ) * 2 ^ e₂), ← hk, mul_eq_zero_iff_right hpow.ne',
        Int.cast_eq_zero]

end Binary

end TalkingCalculator
