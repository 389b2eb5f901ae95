import TalkingCalculator.Proofs.Binary.Difference

/-!
# Products

What a product of doubles stands for is what the exact product rounds to. Rounding keeps the order, so that two
products never compare the other way round than the exact ones, but they may be equal where those differ. Four
times a double is exact, unless it is too great.
-/
namespace TalkingCalculator

open Float.Model (Format UnpackedFloat)
open Float.Model.UnpackedFloat

/-- The double nearest to `x` stands for `y`; a number below zero rounds as its opposite does. -/
def RoundsTo (x y : ℚ) : Prop :=
  ∃ v : Float, v.isFinite = true ∧ IsCorrectlyRounded |x| v ∧ y = SignType.sign x * exactValue v

namespace IsCorrectlyRounded

variable {x y : ℚ} {v w : Float}

theorem exactValue_nonneg (h : IsCorrectlyRounded x v) (hx : 0 ≤ x) (hv : v.isFinite = true) :
    0 ≤ exactValue v := by
  have hzero := h.nearest hv (Binary.ofUnpacked (.zero .positive)) rfl
  rw [Binary.exactValue_zero, sub_zero, abs_of_nonneg hx] at hzero
  have := (abs_le.mp hzero).2
  linarith

/-- Were the rounded values in the other order, each number would be nearer to the other's. -/
theorem mono (hx : IsCorrectlyRounded x v) (hy : IsCorrectlyRounded y w) (hv : v.isFinite = true)
    (hw : w.isFinite = true) (hx0 : 0 ≤ x) (hxy : x ≤ y) : exactValue v ≤ exactValue w := by
  rcases hxy.eq_or_lt with rfl | hlt
  · rw [Binary.eq_nearest_of_isCorrectlyRounded hx0 hx, Binary.eq_nearest_of_isCorrectlyRounded hx0 hy]
  by_contra hgt
  push Not at hgt
  have hxv := sq_le_sq.mpr (hx.nearest hv w hw)
  have hyw := sq_le_sq.mpr (hy.nearest hw v hv)
  nlinarith

end IsCorrectlyRounded

namespace RoundsTo

variable {x y p q : ℚ}

theorem nonneg (h : RoundsTo x p) (hx : 0 ≤ x) : 0 ≤ p := by
  obtain ⟨v, hv, hround, rfl⟩ := h
  have hvalue := hround.exactValue_nonneg (abs_nonneg x) hv
  rcases hx.eq_or_lt with rfl | hpos
  · simp
  · rw [sign_pos hpos]
    simpa using hvalue

theorem neg (h : RoundsTo x p) : RoundsTo (-x) (-p) := by
  obtain ⟨v, hv, hround, rfl⟩ := h
  refine ⟨v, hv, by rwa [abs_neg], ?_⟩
  rw [Left.sign_neg, SignType.coe_neg, neg_mul]

theorem mono_of_nonneg (hp : RoundsTo x p) (hq : RoundsTo y q) (hx : 0 ≤ x) (hxy : x ≤ y) : p ≤ q := by
  rcases hx.eq_or_lt with rfl | hpos
  · obtain ⟨v, -, -, rfl⟩ := hp
    simpa using hq.nonneg hxy
  · obtain ⟨v, hv, hv', rfl⟩ := hp
    obtain ⟨w, hw, hw', rfl⟩ := hq
    have hvalue := hv'.mono hw' hv hw (abs_nonneg x) (abs_le_abs_of_nonneg hx hxy)
    rw [sign_pos hpos, sign_pos (hpos.trans_le hxy)]
    simpa using hvalue

theorem mono (hp : RoundsTo x p) (hq : RoundsTo y q) (hxy : x ≤ y) : p ≤ q := by
  by_cases hx : 0 ≤ x
  · exact hp.mono_of_nonneg hq hx hxy
  by_cases hy : 0 ≤ y
  · have hp' := hp.neg.nonneg (by linarith)
    have hq' := hq.nonneg hy
    linarith
  · have := hq.neg.mono_of_nonneg hp.neg (by linarith) (neg_le_neg hxy)
    linarith

theorem unique (hp : RoundsTo x p) (hq : RoundsTo x q) : p = q :=
  le_antisymm (hp.mono hq le_rfl) (hq.mono hp le_rfl)

/-- Numbers that round to different values compare as those do. -/
theorem sign_sub_of_ne (hp : RoundsTo x p) (hq : RoundsTo y q) (hne : p ≠ q) :
    SignType.sign (p - q) = SignType.sign (x - y) := by
  rcases lt_trichotomy x y with hlt | rfl | hgt
  · have hpq := lt_of_le_of_ne (hp.mono hq hlt.le) hne
    rw [sign_neg (sub_neg.mpr hpq), sign_neg (sub_neg.mpr hlt)]
  · exact absurd (hp.unique hq) hne
  · have hqp := lt_of_le_of_ne (hq.mono hp hgt.le) hne.symm
    rw [sign_pos (sub_pos.mpr hqp), sign_pos (sub_pos.mpr hgt)]

end RoundsTo

namespace Binary

variable {s s₁ s₂ : Sign} {m m₁ m₂ : ℕ} {e e₁ e₂ : ℤ} {h : 0 < m} {h₁ : 0 < m₁} {h₂ : 0 < m₂} {x y : Float} {q : ℚ}

theorem roundsTo_zero : RoundsTo 0 0 :=
  ⟨nearest .positive 0, by rw [nearest_zero]; rfl, by rw [abs_zero]; exact isCorrectlyRounded_nearest le_rfl, by simp⟩

theorem le_scale_mul (hc₁ : Canonical m₁ e₁) (hc₂ : Canonical m₂ e₂) : e₁ + e₂ ≤ scale (m₁ * m₂) (e₁ + e₂) := by
  rcases hc₁.full with hfull | hmin
  · exact le_scale_of_full (hfull.trans (Nat.le_mul_of_pos_right _ hc₂.pos))
  rcases hc₂.full with hfull | hmin'
  · exact le_scale_of_full (hfull.trans (Nat.le_mul_of_pos_left _ hc₁.pos))
  · exact le_scale_of_le (by omega)

theorem mul_eq_ofUnpacked (x y : Float) :
    x * y = ofUnpacked (UnpackedFloat.mul Format.binary64 x.toModel.unpack y.toModel.unpack) :=
  rfl

theorem mul_eq_nearest (hc₁ : Canonical m₁ e₁) (hc₂ : Canonical m₂ e₂) :
    ofUnpacked (.finite s₁ m₁ e₁ h₁) * ofUnpacked (.finite s₂ m₂ e₂ h₂) =
      nearest (s₁ * s₂) (m₁ * 2 ^ e₁ * (m₂ * 2 ^ e₂)) := by
  rw [mul_eq_ofUnpacked, unpack_ofUnpacked_finite hc₁, unpack_ofUnpacked_finite hc₂]
  exact mul_finite (le_scale_mul hc₁ hc₂)

theorem lt_of_isFinite_nearest (hq : (nearest s q).isFinite = true) : q < 2 ^ 1024 - 2 ^ 970 := by
  by_contra hover
  rw [nearest_of_overflow (not_lt.mp hover)] at hq
  revert hq
  cases s <;> decide

theorem isFinite_nearest (hq : 0 ≤ q) (hlt : q < 2 ^ 1024 - 2 ^ 970) (s : Sign) : (nearest s q).isFinite = true := by
  rcases hq.eq_or_lt with rfl | hpos
  · rw [nearest_zero]
    cases s <;> rfl
  have ht := IsScale.of_log hpos
  obtain ⟨k, hk⟩ := exists_isNearestEven (div_nonneg hpos.le (zpow_nonneg two_pos.le _))
  rw [nearest_eq hpos ht hk]
  rcases settle_cases (s := s) ht hk hlt with ⟨hsettle, -⟩ | ⟨m, e, h, hsettle, hc, -⟩
  · rw [hsettle]
    cases s <;> rfl
  · rw [hsettle]
    exact isFinite_ofUnpacked_finite hc

/-- A number and its opposite round to opposite values. -/
theorem exactValue_nearest (hq : 0 ≤ q) (hlt : q < 2 ^ 1024 - 2 ^ 970) (s : Sign) :
    exactValue (nearest s q) = (s.apply 1 : ℤ) * exactValue (nearest .positive q) := by
  rcases hq.eq_or_lt with rfl | hpos
  · rw [nearest_zero, nearest_zero, exactValue_zero, exactValue_zero, mul_zero]
  have ht := IsScale.of_log hpos
  obtain ⟨k, hk⟩ := exists_isNearestEven (div_nonneg hpos.le (zpow_nonneg two_pos.le _))
  obtain ⟨-, hvalue, -⟩ := nearest_cases hpos ht hk hlt
  rw [hvalue, nearest_eq hpos ht hk]
  rcases settle_cases (s := s) ht hk hlt with ⟨hsettle, rfl⟩ | ⟨m, e, h, hsettle, hc, hme, -⟩
  · rw [hsettle, exactValue_zero]
    simp
  · rw [hsettle, exactValue_finite hc, ← hme]
    cases s <;> simp [Sign.apply]

theorem zero_mul_finite (hc : Canonical m e) :
    ofUnpacked (.zero s₁) * ofUnpacked (.finite s m e h) = ofUnpacked (.zero (s₁ * s)) := by
  rw [mul_eq_ofUnpacked, unpack_ofUnpacked_zero, unpack_ofUnpacked_finite hc]
  rfl

theorem finite_mul_zero (hc : Canonical m e) :
    ofUnpacked (.finite s m e h) * ofUnpacked (.zero s₁) = ofUnpacked (.zero (s * s₁)) := by
  rw [mul_eq_ofUnpacked, unpack_ofUnpacked_zero, unpack_ofUnpacked_finite hc]
  rfl

theorem roundsTo_nearest (hpos : 0 < q) (hlt : q < 2 ^ 1024 - 2 ^ 970) (s : Sign) :
    RoundsTo ((s.apply 1 : ℤ) * q) (exactValue (nearest s q)) := by
  have hround := isCorrectlyRounded_nearest hpos.le
  refine ⟨nearest .positive q, hround.finite hlt, ?_, ?_⟩
  · rw [abs_mul, abs_of_pos hpos]
    cases s <;> simpa [Sign.apply] using hround
  · rw [exactValue_nearest hpos.le hlt, sign_mul, sign_pos hpos]
    cases s <;> simp [Sign.apply]

theorem apply_eq (s : Sign) (m : ℕ) : ((s.apply m : ℤ) : ℚ) = (s.apply 1 : ℤ) * m := by
  cases s <;> simp [Sign.apply]

theorem apply_mul_one (s₁ s₂ : Sign) : (((s₁ * s₂).apply 1 : ℤ) : ℚ) = (s₁.apply 1 : ℤ) * (s₂.apply 1 : ℤ) := by
  rw [← Int.cast_mul]
  cases s₁ <;> cases s₂ <;> rfl

theorem abs_apply_one (s : Sign) : |((s.apply 1 : ℤ) : ℚ)| = 1 := by
  cases s <;> simp [Sign.apply]

theorem isFinite_of_mul (hxy : (x * y).isFinite = true) : x.isFinite = true ∧ y.isFinite = true := by
  replace hxy := isFinite_of_isFinite_ofUnpacked hxy
  change x.toModel.unpack.isFinite = true ∧ y.toModel.unpack.isFinite = true
  generalize x.toModel.unpack = u at hxy ⊢
  generalize y.toModel.unpack = w at hxy ⊢
  cases u with
  | notANumber => cases hxy
  | infinity => cases w <;> cases hxy
  | zero | finite =>
    cases w with
    | notANumber | infinity => cases hxy
    | zero | finite => exact ⟨rfl, rfl⟩

theorem roundsTo_mul (hx : x.isFinite = true) (hy : y.isFinite = true) (hxy : (x * y).isFinite = true) :
    RoundsTo (exactValue x * exactValue y) (exactValue (x * y)) := by
  rcases eq_ofUnpacked_of_isFinite hx with ⟨s₁, rfl⟩ | ⟨s₁, m₁, e₁, h₁, hc₁, rfl⟩ <;>
    rcases eq_ofUnpacked_of_isFinite hy with ⟨s₂, rfl⟩ | ⟨s₂, m₂, e₂, h₂, hc₂, rfl⟩
  · rw [exactValue_zero, zero_mul, show exactValue (ofUnpacked (.zero s₁) * ofUnpacked (.zero s₂)) = 0 by
      cases s₁ <;> cases s₂ <;> decide +kernel]
    exact roundsTo_zero
  · rw [zero_mul_finite hc₂, exactValue_zero, exactValue_zero, zero_mul]
    exact roundsTo_zero
  · rw [finite_mul_zero hc₁, exactValue_zero, exactValue_zero, mul_zero]
    exact roundsTo_zero
  · rw [mul_eq_nearest hc₁ hc₂] at hxy ⊢
    have hround := roundsTo_nearest (by positivity) (lt_of_isFinite_nearest hxy) (s₁ * s₂)
    rw [exactValue_finite hc₁, exactValue_finite hc₂, apply_eq s₁, apply_eq s₂]
    rw [apply_mul_one] at hround
    convert hround using 1
    ring

/-- A mantissa of 53 places is on the grid of the scale of its number, so that nothing is cut off. -/
theorem exactValue_nearest_of_lt (hm0 : 0 < m) (hm : m < 2 ^ 53) (he : -1074 ≤ e)
    (hlt : (m : ℚ) * 2 ^ e < 2 ^ 1024 - 2 ^ 970) : exactValue (nearest .positive (m * 2 ^ e)) = m * 2 ^ e := by
  have hpos : (0 : ℚ) < m * 2 ^ e := by positivity
  have ht := IsScale.of_log hpos
  generalize max (Int.log 2 ((m : ℚ) * 2 ^ e) - 52) (-1074) = t at ht
  have hte : t ≤ e := by
    rcases ht.le with hle | rfl
    · have hm' : (m : ℚ) < 2 ^ (53 : ℤ) := by exact_mod_cast hm
      have hmul : (m : ℚ) * 2 ^ e < 2 ^ (53 + e) := by
        rw [zpow_add₀ two_ne_zero]
        exact mul_lt_mul_of_pos_right hm' (zpow_pos two_pos e)
      have := two_zpow_lt_iff.mp (hle.trans_lt hmul)
      omega
    · exact he
  have hexponent : ((e - t).toNat : ℤ) = e - t := by omega
  have hgrid : (m : ℚ) * 2 ^ e / 2 ^ t = (m * 2 ^ (e - t).toNat : ℕ) := by
    push_cast
    rw [← zpow_natCast, hexponent, zpow_sub₀ two_ne_zero, mul_div_assoc]
  have hq : IsNearestEven (m * 2 ^ (e - t).toNat) ((m : ℚ) * 2 ^ e / 2 ^ t) := by
    rw [hgrid]
    exact ⟨by simp, by simp⟩
  obtain ⟨-, hvalue, -⟩ := nearest_cases hpos ht hq hlt
  rw [hvalue, ← hgrid, div_mul_cancel₀ _ (zpow_ne_zero t two_ne_zero)]

def twoPow (k : ℤ) : Float :=
  ofUnpacked (.finite .positive (2 ^ 52) (k - 52) (by norm_num))

theorem canonical_twoPow {k : ℤ} (hlow : 0 ≤ k) (hhigh : k ≤ 1023) : Canonical (2 ^ 52) (k - 52) := by
  constructor <;> norm_num <;> omega

theorem two_eq_twoPow : (2.0 : Float) = twoPow 1 := by
  decide +kernel

theorem four_eq_twoPow : (4.0 : Float) = twoPow 2 := by
  decide +kernel

theorem twoPow_mul_eq_nearest {k : ℤ} (hlow : 0 ≤ k) (hhigh : k ≤ 1023) (hc : Canonical m e) :
    twoPow k * ofUnpacked (.finite s m e h) = nearest (.positive * s) (m * 2 ^ (e + k)) := by
  unfold twoPow
  rw [mul_eq_nearest (canonical_twoPow hlow hhigh) hc]
  congr 1
  rw [zpow_add₀ two_ne_zero, zpow_sub₀ two_ne_zero]
  norm_num
  ring

/-- Four times a double is exact, also where the double has less than 53 places. -/
theorem exactValue_four_mul (hx : x.isFinite = true) (h4 : (4.0 * x).isFinite = true) :
    exactValue (4.0 * x) = 4 * exactValue x := by
  rw [four_eq_twoPow] at h4 ⊢
  rcases eq_ofUnpacked_of_isFinite hx with ⟨s, rfl⟩ | ⟨s, m, e, h, hc, rfl⟩
  · rw [twoPow, finite_mul_zero (canonical_twoPow zero_le_two (by norm_num)), exactValue_zero, exactValue_zero, mul_zero]
  · rw [twoPow_mul_eq_nearest zero_le_two (by norm_num) hc] at h4 ⊢
    have hlt := lt_of_isFinite_nearest h4
    have hle := hc.le_exponent
    rw [exactValue_nearest (by positivity) hlt, exactValue_nearest_of_lt h hc.lt (by omega) hlt, exactValue_finite hc,
      apply_mul_one, apply_eq s, zpow_add₀ two_ne_zero]
    simp only [Sign.apply]
    push_cast
    ring

/-- Twice a double is finite if four times the double is. -/
theorem isFinite_two_mul (hx : x.isFinite = true) (h4 : (4.0 * x).isFinite = true) : (2.0 * x).isFinite = true := by
  rw [four_eq_twoPow] at h4
  rw [two_eq_twoPow]
  rcases eq_ofUnpacked_of_isFinite hx with ⟨s, rfl⟩ | ⟨s, m, e, h, hc, rfl⟩
  · rw [twoPow, finite_mul_zero (canonical_twoPow zero_le_one (by norm_num))]
    cases s <;> rfl
  · rw [twoPow_mul_eq_nearest zero_le_two (by norm_num) hc] at h4
    rw [twoPow_mul_eq_nearest zero_le_one (by norm_num) hc]
    refine isFinite_nearest (by positivity) (lt_of_le_of_lt ?_ (lt_of_isFinite_nearest h4)) _
    exact mul_le_mul_of_nonneg_left (zpow_le_zpow_right₀ one_le_two (by omega)) (Nat.cast_nonneg m)

end Binary

end TalkingCalculator
