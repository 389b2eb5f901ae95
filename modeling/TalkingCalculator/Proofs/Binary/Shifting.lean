import TalkingCalculator.Proofs.Binary.Rounding

/-!
# Shifting and rounding

A mantissa is shifted to the scale of its number with two residual bits, which stand for the part that is
cut off. They keep what rounding needs: the result is the double nearest to the number.
-/
namespace TalkingCalculator

open Float.Model (Format UnpackedFloat totalExponent)
open Float.Model.UnpackedFloat

namespace Binary

/-- The whole part of `n / d` together with what its residual bits say about the rest. -/
def extended (n d : ℕ) : ExtendedMantissa :=
  .ofMantissaAndAccuracy (n / d) (accuracyOfFraction (n % d) d)

theorem extended_eq (n : ℕ) {d : ℕ} (hd : 0 < d) :
    extended n d = ⟨n / d, decide (d ≤ 2 * (n % d)), decide (n % d ≠ 0 ∧ 2 * (n % d) ≠ d)⟩ := by
  unfold extended accuracyOfFraction
  by_cases hzero : n % d = 0
  · simp [hzero, ExtendedMantissa.ofMantissaAndAccuracy, Nat.pos_iff_ne_zero.mp hd]
  · rw [if_neg hzero]
    cases hcmp : compare (2 * (n % d)) d with
    | lt =>
      have hlt := Nat.compare_eq_lt.mp hcmp
      simp [ExtendedMantissa.ofMantissaAndAccuracy, hzero, hlt, hlt.ne]
    | eq =>
      have heq := Nat.compare_eq_eq.mp hcmp
      simp [ExtendedMantissa.ofMantissaAndAccuracy, heq]
    | gt =>
      have hgt := Nat.compare_eq_gt.mp hcmp
      simp [ExtendedMantissa.ofMantissaAndAccuracy, hzero, hgt.le, hgt.ne']

theorem shiftRightOne_extended (n : ℕ) {d : ℕ} (hd : 0 < d) :
    (extended n d).shiftRightOne = extended n (d * 2) := by
  have hdiv : n / (d * 2) = n / d / 2 := (Nat.div_div_eq_div_mul n d 2).symm
  have hmod : n % (d * 2) = n % d + d * (n / d % 2) := Nat.mod_mul
  have hlt : n % d < d := Nat.mod_lt n hd
  rw [extended_eq n hd, extended_eq n (by omega : 0 < d * 2), hdiv, hmod]
  unfold ExtendedMantissa.shiftRightOne
  rcases Nat.mod_two_eq_zero_or_one (n / d) with hbit | hbit
  · rw [hbit, Nat.mul_zero, Nat.add_zero]
    simp only [ExtendedMantissa.mk.injEq, bne_self_eq_false]
    refine ⟨trivial, ?_, ?_⟩
    · simp only [Bool.false_eq, decide_eq_false_iff_not]
      omega
    · rw [← Bool.decide_or, decide_eq_decide]
      omega
  · rw [hbit, Nat.mul_one]
    simp only [ExtendedMantissa.mk.injEq]
    refine ⟨trivial, ?_, ?_⟩
    · rw [show ((1 : ℕ) != 0) = true from rfl, eq_comm, decide_eq_true_eq]
      omega
    · rw [← Bool.decide_or, decide_eq_decide]
      omega

theorem shiftRight_extended (n k : ℕ) {d : ℕ} (hd : 0 < d) :
    extended n d >>> k = extended n (d * 2 ^ k) := by
  change k.repeat ExtendedMantissa.shiftRightOne (extended n d) = _
  induction k with
  | zero => simp [Nat.repeat]
  | succ k ih =>
    rw [Nat.repeat, ih, shiftRightOne_extended n (by positivity), Nat.pow_succ, Nat.mul_assoc]

theorem roundedMantissa_extended (n : ℕ) {d : ℕ} (hd : 0 < d) :
    (extended n d).roundedMantissa = roundDiv n d := by
  unfold ExtendedMantissa.roundedMantissa roundDiv
  rw [extended_eq n hd]
  rcases Nat.lt_trichotomy (2 * (n % d)) d with hlt | heq | hgt
  · rw [if_pos (Or.inl hlt)]
    by_cases hzero : n % d = 0
    · simp [hzero, ExtendedMantissa.accuracy, Accuracy.roundToNearestEven, hd.ne']
    · simp [hzero, not_le.mpr hlt, hlt.ne, ExtendedMantissa.accuracy, Accuracy.roundToNearestEven]
  · have hzero : n % d ≠ 0 := by omega
    rcases Nat.mod_two_eq_zero_or_one (n / d) with heven | hodd
    · simp [heq, heven, ExtendedMantissa.accuracy, Accuracy.roundToNearestEven]
    · simp [heq, hodd, ExtendedMantissa.accuracy, Accuracy.roundToNearestEven]
  · have hzero : n % d ≠ 0 := by omega
    rw [if_neg (by omega)]
    simp [hzero, hgt.le, hgt.ne', ExtendedMantissa.accuracy, Accuracy.roundToNearestEven]

def scale (m : ℕ) (e : ℤ) : ℤ :=
  max (m.log2 + 1 + e - 53) (-1074)

theorem shiftToTargetExponent_eq (n : ℕ) {d : ℕ} (hd : 0 < d) (e : ℤ) :
    shiftToTargetExponent Format.binary64 (n / d) e (accuracyOfFraction (n % d) d) =
      (extended n (d * 2 ^ (scale (n / d) e - e).toNat), e + (scale (n / d) e - e).toNat) := by
  rw [← shiftRight_extended n _ hd]
  rfl

theorem isScale_scale (n : ℕ) {d : ℕ} (hd : 0 < d) {e : ℤ} (he : e ≤ scale (n / d) e) :
    IsScale (n / d * 2 ^ e) (scale (n / d) e) := by
  have hd' : (0 : ℚ) < d := by exact_mod_cast hd
  have hpow : (0 : ℚ) < 2 ^ e := by positivity
  have hlow : ((n / d : ℕ) : ℚ) ≤ n / d := Nat.cast_div_le
  have hhigh : (n : ℚ) / d < (n / d : ℕ) + 1 := by
    rw [div_lt_iff₀ hd']
    exact_mod_cast Nat.lt_mul_of_div_lt (Nat.lt_succ_self (n / d)) hd
  refine ⟨le_max_right _ _, ?_, ?_⟩
  · have hlog : ((n / d : ℕ) : ℚ) + 1 ≤ 2 ^ ((n / d).log2 + 1 : ℤ) := by
      exact_mod_cast Nat.lt_log2_self
    calc (n : ℚ) / d * 2 ^ e < 2 ^ ((n / d).log2 + 1 : ℤ) * 2 ^ e := by
          exact mul_lt_mul_of_pos_right (hhigh.trans_le hlog) hpow
      _ = 2 ^ ((n / d).log2 + 1 + e : ℤ) := (zpow_add₀ two_ne_zero _ _).symm
      _ ≤ 2 ^ (53 + scale (n / d) e) := zpow_le_zpow_right₀ one_le_two (by unfold scale; omega)
  · by_cases hmin : scale (n / d) e = -1074
    · exact Or.inr hmin
    · left
      have hscale : 52 + scale (n / d) e = (n / d).log2 + e := by
        unfold scale at hmin ⊢
        omega
      have hne : n / d ≠ 0 := by
        intro hzero
        have : (n / d).log2 = 0 := by rw [hzero, Nat.log2_zero]
        omega
      have hlog : (2 : ℚ) ^ ((n / d).log2 : ℤ) ≤ (n / d : ℕ) := by
        exact_mod_cast Nat.log2_self_le hne
      rw [hscale, zpow_add₀ two_ne_zero]
      exact mul_le_mul_of_nonneg_right (hlog.trans hlow) hpow.le

theorem shiftToTargetExponent_exact (q : ℕ) (t : ℤ) :
    shiftToTargetExponent Format.binary64 q t .exact =
      (extended q (2 ^ (scale q t - t).toNat), t + (scale q t - t).toNat) := by
  have := shiftToTargetExponent_eq q one_pos t
  rwa [Nat.div_one, Nat.mod_one, one_mul] at this

/-- After the mantissa is rounded, at most one more place has to go. -/
theorem roundWithAccuracy_eq_settle {s : Sign} {m : ℕ} {e t : ℤ} {accuracy : Accuracy} {em : ExtendedMantissa}
    (hshift : shiftToTargetExponent Format.binary64 m e accuracy = (em, t)) (ht : -1074 ≤ t)
    (hq : em.roundedMantissa ≤ 2 ^ 53) :
    roundWithAccuracy Format.binary64 s m e accuracy = settle s em.roundedMantissa t := by
  have hassemble : roundWithAccuracy Format.binary64 s m e accuracy =
      let r := shiftToTargetExponent Format.binary64 em.roundedMantissa t .exact
      assemble s r.1.mantissa r.2 := by
    unfold roundWithAccuracy
    rw [hshift]
    rfl
  rw [hassemble]
  generalize em.roundedMantissa = q at hq
  simp only [shiftToTargetExponent_exact]
  unfold settle
  by_cases hsmall : q < 2 ^ 53
  · have hlog : q.log2 < 53 := by
      by_cases hzero : q = 0
      · simp [hzero]
      · exact (Nat.log2_lt hzero).mpr hsmall
    have hk : (scale q t - t).toNat = 0 := by
      unfold scale
      omega
    rw [if_pos hsmall, hk, extended_eq q (by norm_num), pow_zero, Nat.div_one]
    simp
  · have hq' : q = 2 ^ 53 := by omega
    have hk : (scale q t - t).toNat = 1 := by
      have : q.log2 = 53 := by rw [hq', Nat.log2_two_pow]
      unfold scale
      omega
    rw [if_neg hsmall, hk, extended_eq q (by norm_num), hq']
    rfl

/-- The rounding of a quotient whose last place has not been cut off is the nearest double. -/
theorem roundWithAccuracy_eq {s : Sign} {n d : ℕ} (hn : 0 < n) (hd : 0 < d) {e : ℤ}
    (he : e ≤ scale (n / d) e) :
    ofUnpacked (roundWithAccuracy Format.binary64 s (n / d) e (accuracyOfFraction (n % d) d)) =
      nearest s (n / d * 2 ^ e) := by
  have hd' : (0 : ℚ) < d := by exact_mod_cast hd
  have hn' : (0 : ℚ) < n := by exact_mod_cast hn
  have hscale := isScale_scale n hd he
  have hshift := shiftToTargetExponent_eq n hd e
  generalize hk : (scale (n / d) e - e).toNat = k at hshift
  have ht : e + k = scale (n / d) e := by omega
  rw [ht] at hshift
  generalize scale (n / d) e = t at hscale hshift ht
  have hunits : (n : ℚ) / d * 2 ^ e / 2 ^ t = n / (d * 2 ^ k : ℕ) := by
    rw [← ht, zpow_add₀ two_ne_zero, zpow_natCast]
    push_cast
    field_simp
  have hround := isNearestEven_roundDiv n (by positivity : 0 < d * 2 ^ k)
  have hrounded := roundedMantissa_extended n (by positivity : 0 < d * 2 ^ k)
  rw [← hunits] at hround
  have hle : roundDiv n (d * 2 ^ k) ≤ 2 ^ 53 := by
    have hnear := (abs_le.mp hround.near).1
    have hlt : (n : ℚ) / d * 2 ^ e / 2 ^ t < 2 ^ 53 := by
      rw [div_lt_iff₀ (by positivity)]
      have := hscale.lt
      rwa [zpow_add₀ two_ne_zero] at this
    have : (roundDiv n (d * 2 ^ k) : ℚ) < (2 ^ 53 + 1 : ℕ) := by
      push_cast
      linarith
    exact Nat.lt_succ_iff.mp (by exact_mod_cast this)
  rw [roundWithAccuracy_eq_settle hshift hscale.le_scale (by rwa [hrounded]), hrounded,
    nearest_eq (by positivity) hscale hround]

end Binary

end TalkingCalculator
