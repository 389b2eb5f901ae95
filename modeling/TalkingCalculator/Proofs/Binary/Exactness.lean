import TalkingCalculator.Proofs.Binary.Opposites
import TalkingCalculator.Proofs.Binary.Products

/-!
# Exact operations

Where the exact result of an operation is the value of some double, the operation gives it. This holds of products,
quotients, sums and differences, and of the square root of a square. Whole numbers up to `2 ^ 53` are values of doubles.
-/
namespace TalkingCalculator

open Float.Model (Format UnpackedFloat totalExponent)
open Float.Model.UnpackedFloat

/-- `v` stands for `q`; both zeros stand for zero. -/
structure IsExactly (v : Float) (q : ℚ) : Prop where
  isFinite : v.isFinite = true
  exactValue_eq : exactValue v = q

def Representable (q : ℚ) : Prop :=
  ∃ v, IsExactly v q

theorem Representable.neg {q : ℚ} (h : Representable q) : Representable (-q) := by
  obtain ⟨v, hv, rfl⟩ := h
  exact ⟨-v, Binary.isFinite_neg hv, Binary.exactValue_neg hv⟩

namespace Binary

variable {s s₁ s₂ : Sign} {x : Float} {q : ℚ} {m m₁ m₂ : ℕ} {e e₁ e₂ t : ℤ} {h : 0 < m} {h₁ : 0 < m₁} {h₂ : 0 < m₂}

theorem isExactly_zero (s : Sign) : IsExactly (ofUnpacked (.zero s)) 0 :=
  ⟨by cases s <;> rfl, exactValue_zero⟩

theorem isExactly_finite (hc : Canonical m e) :
    IsExactly (ofUnpacked (.finite s m e h)) ((s.apply 1 : ℤ) * (m * 2 ^ e)) :=
  ⟨isFinite_ofUnpacked_finite hc, by rw [exactValue_finite hc, apply_eq, mul_assoc]⟩

theorem isExactly_twoPow {k : ℤ} (hlow : 0 ≤ k) (hhigh : k ≤ 1023) : IsExactly (twoPow k) (2 ^ k) := by
  have hpower := isExactly_finite (s := .positive) (h := by norm_num) (canonical_twoPow hlow hhigh)
  refine ⟨hpower.isFinite, hpower.exactValue_eq.trans ?_⟩
  rw [zpow_sub₀ two_ne_zero]
  norm_num [Sign.apply]
  ring

theorem abs_exactValue_lt (hx : x.isFinite = true) : |exactValue x| < 2 ^ 1024 - 2 ^ 970 := by
  rcases eq_ofUnpacked_of_isFinite hx with ⟨s, rfl⟩ | ⟨s, m, e, h, hc, rfl⟩
  · rw [exactValue_zero, abs_zero, sub_pos]
    exact pow_lt_pow_right₀ one_lt_two (by norm_num)
  · have hm : (m : ℚ) ≤ (2 ^ 53 - 1 : ℕ) := by exact_mod_cast Nat.le_sub_one_of_lt hc.lt
    have hpow : (2 : ℚ) ^ e ≤ 2 ^ (971 : ℤ) := zpow_le_zpow_right₀ one_le_two hc.exponent_le
    rw [(isExactly_finite hc).exactValue_eq, abs_mul, abs_apply_one, one_mul, abs_of_nonneg (by positivity), overflow_eq]
    calc (m : ℚ) * 2 ^ e ≤ (2 ^ 53 - 1 : ℕ) * 2 ^ (971 : ℤ) := mul_le_mul hm hpow (by positivity) (Nat.cast_nonneg _)
      _ < (2 ^ 53 - 1 / 2) * 2 ^ (971 : ℤ) := mul_lt_mul_of_pos_right (by norm_num) (zpow_pos two_pos _)

theorem representable_of_apply (hr : Representable ((s.apply 1 : ℤ) * q)) : Representable q := by
  cases s with
  | positive => simpa [Sign.apply] using hr
  | negative => simpa [Sign.apply] using hr.neg

/-- No double is nearer to a number than one that stands for it. -/
theorem isExactly_nearest (hq : 0 ≤ q) (hr : Representable ((s.apply 1 : ℤ) * q)) :
    IsExactly (nearest s q) ((s.apply 1 : ℤ) * q) := by
  obtain ⟨v, hv, rfl⟩ := representable_of_apply hr
  have hlt : exactValue v < 2 ^ 1024 - 2 ^ 970 := (le_abs_self _).trans_lt (abs_exactValue_lt hv)
  have hround := isCorrectlyRounded_nearest hq
  have hnear := hround.nearest (hround.finite hlt) v hv
  rw [sub_self, abs_zero, abs_nonpos_iff, sub_eq_zero] at hnear
  exact ⟨isFinite_nearest hq hlt s, by rw [exactValue_nearest hq hlt, ← hnear]⟩

theorem signOf_apply_mul_abs (k : ℤ) : ((signOf k).apply 1 : ℤ) * |(k : ℚ)| = k := by
  unfold signOf
  split_ifs with hk
  · rw [abs_of_neg (Int.cast_lt_zero.mpr hk)]
    simp [Sign.apply]
  · rw [abs_of_nonneg (Int.cast_nonneg (not_lt.mp hk))]
    simp [Sign.apply]

theorem isExactly_normalize {k : ℤ} (hr : Representable (k * 2 ^ e)) (z : Sign) :
    IsExactly (ofUnpacked (UnpackedFloat.normalize Format.binary64 k e z)) (k * 2 ^ e) := by
  by_cases hk : k = 0
  · subst hk
    rw [Int.cast_zero, zero_mul]
    exact isExactly_zero z
  · rw [normalize_eq hk]
    have hvalue : ((signOf k).apply 1 : ℤ) * (|(k : ℚ)| * 2 ^ e) = k * 2 ^ e := by
      rw [← mul_assoc, signOf_apply_mul_abs]
    rw [← hvalue] at hr ⊢
    exact isExactly_nearest (by positivity) hr

theorem isExactly_mul_finite (hc₁ : Canonical m₁ e₁) (hc₂ : Canonical m₂ e₂)
    (hr : Representable ((s₁.apply 1 : ℤ) * (m₁ * 2 ^ e₁) * ((s₂.apply 1 : ℤ) * (m₂ * 2 ^ e₂)))) :
    IsExactly (ofUnpacked (.finite s₁ m₁ e₁ h₁) * ofUnpacked (.finite s₂ m₂ e₂ h₂))
      ((s₁.apply 1 : ℤ) * (m₁ * 2 ^ e₁) * ((s₂.apply 1 : ℤ) * (m₂ * 2 ^ e₂))) := by
  rw [mul_mul_mul_comm, ← apply_mul_one] at hr ⊢
  rw [mul_eq_nearest hc₁ hc₂]
  exact isExactly_nearest (by positivity) hr

theorem apply_div_one (s₁ s₂ : Sign) : (((s₁ / s₂).apply 1 : ℤ) : ℚ) = (s₁.apply 1 : ℤ) / (s₂.apply 1 : ℤ) := by
  have hsign : s₁ / s₂ = s₁ * s₂ := by cases s₁ <;> cases s₂ <;> rfl
  rw [hsign, apply_mul_one]
  cases s₁ <;> cases s₂ <;> simp [Sign.apply]

theorem isExactly_div_finite (hc₁ : Canonical m₁ e₁) (hc₂ : Canonical m₂ e₂)
    (hr : Representable ((s₁.apply 1 : ℤ) * (m₁ * 2 ^ e₁) / ((s₂.apply 1 : ℤ) * (m₂ * 2 ^ e₂)))) :
    IsExactly (ofUnpacked (.finite s₁ m₁ e₁ h₁) / ofUnpacked (.finite s₂ m₂ e₂ h₂))
      ((s₁.apply 1 : ℤ) * (m₁ * 2 ^ e₁) / ((s₂.apply 1 : ℤ) * (m₂ * 2 ^ e₂))) := by
  have hdiv : ofUnpacked (.finite s₁ m₁ e₁ h₁) / ofUnpacked (.finite s₂ m₂ e₂ h₂) =
      nearest (s₁ / s₂) (m₁ * 2 ^ e₁ / (m₂ * 2 ^ e₂)) := by
    change ofUnpacked (UnpackedFloat.div Format.binary64 (ofUnpacked (.finite s₁ m₁ e₁ h₁)).toModel.unpack
      (ofUnpacked (.finite s₂ m₂ e₂ h₂)).toModel.unpack) = _
    rw [unpack_ofUnpacked_finite hc₁, unpack_ofUnpacked_finite hc₂]
    exact div_finite
  rw [mul_div_mul_comm, ← apply_div_one] at hr ⊢
  rw [hdiv]
  exact isExactly_nearest (by positivity) hr

theorem roundWithAccuracy_exact {r : ℕ} (hr : 0 < r) (ht : t ≤ scale r t) :
    ofUnpacked (roundWithAccuracy Format.binary64 s r t .exact) = nearest s (r * 2 ^ t) := by
  have hround := roundWithAccuracy_eq (s := s) hr one_pos (e := t) (by rwa [Nat.div_one])
  rwa [Nat.div_one, Nat.mod_one, Nat.cast_one, div_one] at hround

/-- The exponent to which a root is taken leaves the square with twice the places that the root needs. -/
theorem le_scale_root (hm : 0 < m) {r : ℕ} (hsquare : m * 2 ^ (e - 2 * t).toNat = r * r)
    (ht : t = min (e / 2) (max ((m.log2 + 1 + e + 1) / 2 - 53) (-1074))) : t ≤ scale r t := by
  by_cases hmin : t ≤ -1074
  · exact le_scale_of_le hmin
  · apply le_scale_of_full
    have hlog : 104 ≤ m.log2 + (e - 2 * t).toNat := by omega
    have hlarge : 2 ^ 52 * 2 ^ 52 ≤ r * r := by
      rw [← hsquare, ← pow_add]
      calc 2 ^ (52 + 52) ≤ 2 ^ (m.log2 + (e - 2 * t).toNat) := Nat.pow_le_pow_right two_pos hlog
        _ = 2 ^ m.log2 * 2 ^ (e - 2 * t).toNat := pow_add _ _ _
        _ ≤ m * 2 ^ (e - 2 * t).toNat := Nat.mul_le_mul_right _ (Nat.log2_self_le hm.ne')
    exact Nat.mul_self_le_mul_self_iff.mp hlarge

/-- The root of a square leaves no remainder. -/
theorem sqrt_finite_of_sq (hc : Canonical m e) (hq : 0 ≤ q) (hsquare : (m : ℚ) * 2 ^ e = q ^ 2) :
    (ofUnpacked (.finite .positive m e h)).sqrt = nearest .positive q := by
  change ofUnpacked (UnpackedFloat.sqrt Format.binary64 (ofUnpacked (.finite .positive m e h)).toModel.unpack) = _
  rw [unpack_ofUnpacked_finite hc]
  simp only [UnpackedFloat.sqrt, sqrtCore]
  generalize ht : min (e.ediv 2) (Format.binary64.targetExponent ((totalExponent m e + 1).ediv 2)) = t
  have ht' : t = min (e / 2) (max ((m.log2 + 1 + e + 1) / 2 - 53) (-1074)) := ht.symm
  have hexponent : ((e - 2 * t).toNat : ℤ) = e - 2 * t := by omega
  have hrational : ((m * 2 ^ (e - 2 * t).toNat : ℕ) : ℚ) = q / 2 ^ t * (q / 2 ^ t) := by
    push_cast
    rw [← zpow_natCast, hexponent, zpow_sub₀ two_ne_zero, two_mul, zpow_add₀ two_ne_zero, ← mul_div_assoc, hsquare, sq,
      mul_div_mul_comm]
  obtain ⟨r, hr⟩ := Rat.isSquare_natCast_iff.mp ⟨_, hrational⟩
  have hroot : (r : ℚ) * 2 ^ t = q := by
    have hsame : (r : ℚ) * r = q / 2 ^ t * (q / 2 ^ t) := by
      rw [← hrational, hr, Nat.cast_mul]
    rw [(mul_self_inj_of_nonneg (Nat.cast_nonneg r) (by positivity)).mp hsame, ← eq_units_mul]
  have hpos : 0 < r := by
    refine Nat.pos_of_ne_zero ?_
    rintro rfl
    have : 0 < m * 2 ^ (e - 2 * t).toNat := Nat.mul_pos h (Nat.two_pow_pos _)
    omega
  rw [Nat.shiftLeft_eq, hr, Nat.sqrt_eq, Nat.sub_self, if_pos rfl,
    roundWithAccuracy_exact hpos (le_scale_root h hr ht'), hroot]

theorem zero_div_finite (hc : Canonical m e) :
    ofUnpacked (.zero s₁) / ofUnpacked (.finite s m e h) = ofUnpacked (.zero (s₁ / s)) := by
  change ofUnpacked (UnpackedFloat.div Format.binary64 (ofUnpacked (.zero s₁)).toModel.unpack
    (ofUnpacked (.finite s m e h)).toModel.unpack) = _
  rw [unpack_ofUnpacked_zero, unpack_ofUnpacked_finite hc]
  rfl

end Binary

open Binary

namespace Representable

protected theorem zero : Representable 0 :=
  ⟨_, isExactly_zero .positive⟩

theorem natCast {n : ℕ} (hn : n ≤ 2 ^ 53) : Representable n := by
  have hbound : (2 : ℚ) ^ 53 < 2 ^ 1024 - 2 ^ 970 := by
    have hlow : (2 : ℚ) ^ 53 ≤ 2 ^ 970 := pow_le_pow_right₀ one_le_two (by norm_num)
    have hhigh : (2 : ℚ) ^ 970 * 2 < 2 ^ 1024 := by
      rw [← pow_succ]
      exact pow_lt_pow_right₀ one_lt_two (by norm_num)
    rw [lt_sub_iff_add_lt]
    exact (add_le_add_left hlow _).trans_lt ((mul_two _).symm.trans_lt hhigh)
  rcases hn.lt_or_eq with hlt | rfl
  · rcases Nat.eq_zero_or_pos n with rfl | hpos
    · simpa using Representable.zero
    · have hn' : (n : ℚ) * 2 ^ (0 : ℤ) < 2 ^ 53 := by
        rw [zpow_zero, mul_one]
        exact_mod_cast hlt
      have hvalue := exactValue_nearest_of_lt hpos hlt (by norm_num) (hn'.trans hbound)
      rw [zpow_zero, mul_one] at hvalue hn'
      exact ⟨_, isFinite_nearest (by positivity) (hn'.trans hbound) .positive, hvalue⟩
  · exact ⟨_, by exact_mod_cast isExactly_twoPow (k := 53) (by norm_num) (by norm_num)⟩

theorem intCast {k : ℤ} (hk : |k| ≤ 2 ^ 53) : Representable k := by
  obtain ⟨n, rfl | rfl⟩ := k.eq_nat_or_neg
  · simpa using natCast (n := n) (by simpa using hk)
  · simpa using (natCast (n := n) (by simpa using hk)).neg

end Representable

namespace IsExactly

variable {x y : Float} {p q : ℚ}

theorem beq_zero_iff (h : IsExactly x p) : (x == 0.0) = true ↔ p = 0 := by
  rw [← h.exactValue_eq]
  exact (compare_zero h.isFinite).2

theorem zero_lt_iff (h : IsExactly x p) : 0.0 < x ↔ 0 < p := by
  rw [← h.exactValue_eq]
  exact (compare_zero h.isFinite).1

theorem of_alike (h : IsExactly x p) (halike : Alike x y) : IsExactly y p := by
  rcases halike with rfl | ⟨hx, hy⟩
  · exact h
  · obtain ⟨s, rfl⟩ := Binary.beq_zero_iff.mp hy
    rw [h.beq_zero_iff.mp hx]
    exact isExactly_zero s

theorem neg (h : IsExactly x p) : IsExactly (-x) (-p) :=
  ⟨isFinite_neg h.isFinite, by rw [exactValue_neg h.isFinite, h.exactValue_eq]⟩

theorem mul (hx : IsExactly x p) (hy : IsExactly y q) (hr : Representable (p * q)) : IsExactly (x * y) (p * q) := by
  obtain ⟨hx, rfl⟩ := hx
  obtain ⟨hy, rfl⟩ := hy
  rcases eq_ofUnpacked_of_isFinite hx with ⟨s₁, rfl⟩ | ⟨s₁, m₁, e₁, h₁, hc₁, rfl⟩ <;>
    rcases eq_ofUnpacked_of_isFinite hy with ⟨s₂, rfl⟩ | ⟨s₂, m₂, e₂, h₂, hc₂, rfl⟩
  · rw [exactValue_zero, zero_mul]
    cases s₁ <;> cases s₂ <;> exact isExactly_zero _
  · rw [zero_mul_finite hc₂, exactValue_zero, zero_mul]
    exact isExactly_zero _
  · rw [finite_mul_zero hc₁, exactValue_zero, mul_zero]
    exact isExactly_zero _
  · rw [(isExactly_finite hc₁).exactValue_eq, (isExactly_finite hc₂).exactValue_eq] at hr ⊢
    exact isExactly_mul_finite hc₁ hc₂ hr

theorem div (hx : IsExactly x p) (hy : IsExactly y q) (hq : q ≠ 0) (hr : Representable (p / q)) :
    IsExactly (x / y) (p / q) := by
  obtain ⟨hx, rfl⟩ := hx
  obtain ⟨hy, rfl⟩ := hy
  rcases eq_ofUnpacked_of_isFinite hy with ⟨s₂, rfl⟩ | ⟨s₂, m₂, e₂, h₂, hc₂, rfl⟩
  · exact absurd exactValue_zero hq
  rcases eq_ofUnpacked_of_isFinite hx with ⟨s₁, rfl⟩ | ⟨s₁, m₁, e₁, h₁, hc₁, rfl⟩
  · rw [zero_div_finite hc₂, exactValue_zero, zero_div]
    exact isExactly_zero _
  · rw [(isExactly_finite hc₁).exactValue_eq, (isExactly_finite hc₂).exactValue_eq] at hr ⊢
    exact isExactly_div_finite hc₁ hc₂ hr

theorem sub (hx : IsExactly x p) (hy : IsExactly y q) (hr : Representable (p - q)) : IsExactly (x - y) (p - q) := by
  obtain ⟨hx, rfl⟩ := hx
  obtain ⟨hy, rfl⟩ := hy
  rcases eq_ofUnpacked_of_isFinite hx with ⟨s₁, rfl⟩ | ⟨s₁, m₁, e₁, h₁, hc₁, rfl⟩ <;>
    rcases eq_ofUnpacked_of_isFinite hy with ⟨s₂, rfl⟩ | ⟨s₂, m₂, e₂, h₂, hc₂, rfl⟩
  · rw [exactValue_zero, exactValue_zero, sub_zero]
    cases s₁ <;> cases s₂ <;> exact isExactly_zero _
  · rw [zero_sub_finite hc₂, exactValue_zero, zero_sub]
    exact neg ⟨hy, rfl⟩
  · rw [finite_sub_zero hc₁, exactValue_zero, sub_zero]
    exact ⟨hx, rfl⟩
  · obtain ⟨k, hsub, hk⟩ := sub_finite s₁ s₂ h₁ h₂ hc₁ hc₂
    rw [exactValue_finite hc₁, exactValue_finite hc₂, ← hk] at hr ⊢
    rw [hsub]
    exact isExactly_normalize hr _

theorem add (hx : IsExactly x p) (hy : IsExactly y q) (hr : Representable (p + q)) : IsExactly (x + y) (p + q) := by
  have hdifference := hx.neg.sub hy (by rw [← neg_add']; exact hr.neg)
  have hsum := hdifference.neg.of_alike (neg_add_alike (-x) y).symm
  rwa [Binary.neg_neg, ← neg_add', neg_neg] at hsum

section Integers

variable {j k : ℤ}

theorem mul_intCast (hx : IsExactly x j) (hy : IsExactly y k) (h : |j * k| ≤ 2 ^ 53) :
    IsExactly (x * y) (j * k : ℤ) := by
  rw [Int.cast_mul]
  exact hx.mul hy (by exact_mod_cast Representable.intCast h)

theorem add_intCast (hx : IsExactly x j) (hy : IsExactly y k) (h : |j + k| ≤ 2 ^ 53) :
    IsExactly (x + y) (j + k : ℤ) := by
  rw [Int.cast_add]
  exact hx.add hy (by exact_mod_cast Representable.intCast h)

theorem sub_intCast (hx : IsExactly x j) (hy : IsExactly y k) (h : |j - k| ≤ 2 ^ 53) :
    IsExactly (x - y) (j - k : ℤ) := by
  rw [Int.cast_sub]
  exact hx.sub hy (by exact_mod_cast Representable.intCast h)

end Integers

/-- The root of a square of a value of a double. -/
theorem sqrt (hx : IsExactly x (q ^ 2)) (hq : 0 ≤ q) (hr : Representable q) : IsExactly x.sqrt q := by
  rcases eq_ofUnpacked_of_isFinite hx.isFinite with ⟨s, rfl⟩ | ⟨s, m, e, h, hc, rfl⟩
  · have hzero : q = 0 := pow_eq_zero_iff two_ne_zero |>.mp (hx.exactValue_eq.symm.trans exactValue_zero)
    rw [hzero]
    cases s <;> exact isExactly_zero _
  · have hvalue := (isExactly_finite hc).exactValue_eq.symm.trans hx.exactValue_eq
    cases s with
    | negative =>
      have hneg : (m : ℚ) * 2 ^ e = -q ^ 2 := by simpa [Sign.apply, neg_eq_iff_eq_neg] using hvalue
      have hpos : (0 : ℚ) < m * 2 ^ e := by positivity
      nlinarith [sq_nonneg q]
    | positive =>
      rw [sqrt_finite_of_sq hc hq (by simpa [Sign.apply] using hvalue)]
      simpa [Sign.apply] using isExactly_nearest (s := .positive) hq (by simpa [Sign.apply] using hr)

theorem one : IsExactly 1.0 1 := by
  have hone : (1.0 : Float) = twoPow 0 := by decide +kernel
  rw [hone]
  exact isExactly_twoPow (k := 0) (by norm_num) (by norm_num)

theorem ofNat {n : ℕ} (hn : n < 2 ^ 53) : IsExactly (Float.ofNat n) n := by
  have hproduct : Float.ofNat n =
      ofUnpacked (UnpackedFloat.normalize Format.binary64 (n.toUInt64.toNat : ℤ) 0 .positive) * 1.0 := by
    change Float.ofScientific n false 0 = _
    unfold Float.ofScientific
    rw [dif_pos ⟨hn, by norm_num⟩]
    rfl
  have hword : n.toUInt64.toNat = n := Nat.mod_eq_of_lt (by omega)
  have hr : Representable n := .natCast hn.le
  have hfirst := isExactly_normalize (k := n) (e := 0) (by simpa using hr) .positive
  rw [hproduct, hword]
  simpa using hfirst.mul one (by simpa using hr)

theorem ofInt {k : ℤ} (hk : |k| < 2 ^ 53) : IsExactly (Float.ofInt k) k := by
  cases k with
  | ofNat n => exact ofNat (by simpa using hk)
  | negSucc n =>
    have hn : n + 1 < 2 ^ 53 := by
      have habs : |Int.negSucc n| = (n + 1 : ℕ) := Int.abs_eq_natAbs _
      omega
    rw [Int.cast_negSucc]
    exact (ofNat hn).neg

end IsExactly

end TalkingCalculator
