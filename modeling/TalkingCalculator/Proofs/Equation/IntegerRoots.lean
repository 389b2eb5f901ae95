import TalkingCalculator.Equation.Roots
import TalkingCalculator.Proofs.Binary.Exactness

/-!
# Whole roots

An equation with whole roots, and with a discriminant that no rounding touches, is solved exactly. The discriminant is
then the square of `a * (p - q)`, where `p` is the root with the positive square root: the greater one if `a` is above
zero, and the smaller one otherwise.
-/
namespace TalkingCalculator

/-- `r` is the double root `p`, or the roots `p` and `q` in this order. -/
inductive Roots.AreExactly : Roots → ℤ → ℤ → Prop
  | double {x : Float} {p : ℤ} (h : IsExactly x p) : AreExactly (.oneReal x) p p
  | apart {x₁ x₂ : Float} {p q : ℤ} (hne : p ≠ q) (h₁ : IsExactly x₁ p) (h₂ : IsExactly x₂ q) :
      AreExactly (.twoReal x₁ x₂) p q

theorem Roots.AreExactly.all_isFinite {r : Roots} {p q : ℤ} (h : r.AreExactly p q) :
    r.values.all Float.isFinite = true := by
  cases h with
  | double h => simp [values, h.isFinite]
  | apart hne h₁ h₂ => simp [values, h₁.isFinite, h₂.isFinite]

theorem isExactly_two : IsExactly 2.0 (2 : ℤ) := by
  rw [Binary.two_eq_twoPow]
  exact Binary.isExactly_twoPow (k := 1) (by norm_num) (by norm_num)

theorem isExactly_four : IsExactly 4.0 (4 : ℤ) := by
  rw [Binary.four_eq_twoPow]
  convert Binary.isExactly_twoPow (k := 2) (by norm_num) (by norm_num) using 1
  norm_num

variable {a b c p q : ℤ} {x y z d n : Float}

theorem isExactly_discriminant (hx : IsExactly x a) (hy : IsExactly y b) (hz : IsExactly z c) (h4a : |4 * a| ≤ 2 ^ 53)
    (hbound : b ^ 2 + |4 * a * c| ≤ 2 ^ 53) : IsExactly (discriminant x y z) (b ^ 2 - 4 * a * c : ℤ) := by
  have hsquare : |b * b| ≤ 2 ^ 53 := by
    rw [abs_mul_self]
    linarith [abs_nonneg (4 * a * c), sq b]
  have hproduct : |4 * a * c| ≤ 2 ^ 53 := by linarith [sq_nonneg b]
  have hdifference : |b ^ 2 - 4 * a * c| ≤ 2 ^ 53 := by
    refine (abs_sub _ _).trans ?_
    rwa [abs_sq]
  rw [sq] at hdifference ⊢
  have hfour := isExactly_four.mul_intCast hx h4a
  exact (hy.mul_intCast hy hsquare).sub_intCast (hfour.mul_intCast hz hproduct) hdifference

/-- Dividing by twice the first coefficient undoes the multiplication. -/
theorem isExactly_quotient (hx : IsExactly x a) (ha : a ≠ 0) (h2a : |2 * a| ≤ 2 ^ 53) (hn : IsExactly n (2 * a * p : ℤ))
    (hp : |2 * a * p| ≤ 2 ^ 53) : IsExactly (n / (2.0 * x)) p := by
  have htwice := isExactly_two.mul_intCast hx h2a
  have hne : ((2 * a : ℤ) : ℚ) ≠ 0 := by
    rw [Int.cast_ne_zero]
    omega
  have hroot : ((2 * a * p : ℤ) : ℚ) / (2 * a : ℤ) = p := by
    rw [Int.cast_mul, mul_div_cancel_left₀ _ hne]
  have hsmall : |p| ≤ 2 ^ 53 := by
    have hone : 1 ≤ |2 * a| := Int.one_le_abs (by omega)
    rw [abs_mul] at hp
    exact (le_mul_of_one_le_left (abs_nonneg p) hone).trans hp
  rw [← hroot]
  refine hn.div htwice hne ?_
  rw [hroot]
  exact .intCast hsmall

/-- The numerators of the roots are `2 * a * p` and `2 * a * q`. -/
theorem ofDiscriminant_areExactly (hx : IsExactly x a) (hy : IsExactly y (-(a * (p + q)) : ℤ)) (ha : a ≠ 0)
    (hd : IsExactly d ((a * (p - q)) ^ 2 : ℤ)) (hk : 0 ≤ a * (p - q)) (h2a : |2 * a| ≤ 2 ^ 53)
    (hp : |2 * a * p| ≤ 2 ^ 53) (hq : |2 * a * q| ≤ 2 ^ 53) (hroot : a * (p - q) ≤ 2 ^ 53) :
    (Roots.ofDiscriminant x y d).AreExactly p q := by
  have hminus : IsExactly (-y) (a * (p + q) : ℤ) := by
    have := hy.neg
    rwa [Int.cast_neg, neg_neg] at this
  unfold Roots.ofDiscriminant
  by_cases hsame : p = q
  · subst hsame
    rw [sub_self, mul_zero, sq, mul_zero, Int.cast_zero] at hd
    have hnumerator : IsExactly (-y) (2 * a * p : ℤ) := by
      convert hminus using 2
      ring
    rw [if_neg (mt hd.zero_lt_iff.mp (lt_irrefl 0)), if_pos (hd.beq_zero_iff.mpr rfl)]
    exact .double (isExactly_quotient hx ha h2a hnumerator hp)
  · have hpos : 0 < (a * (p - q)) ^ 2 := by
      have hne : a * (p - q) ≠ 0 := mul_ne_zero ha (sub_ne_zero.mpr hsame)
      positivity
    have hsqrt : IsExactly d.sqrt (a * (p - q) : ℤ) := by
      refine IsExactly.sqrt ?_ (by exact_mod_cast hk) (.intCast (by rwa [abs_of_nonneg hk]))
      rwa [Int.cast_pow] at hd
    have hsum : a * (p + q) + a * (p - q) = 2 * a * p := by ring
    have hdifference : a * (p + q) - a * (p - q) = 2 * a * q := by ring
    have hplus : IsExactly (-y + d.sqrt) (2 * a * p : ℤ) := by
      rw [← hsum] at hp ⊢
      exact hminus.add_intCast hsqrt hp
    have hless : IsExactly (-y - d.sqrt) (2 * a * q : ℤ) := by
      rw [← hdifference] at hq ⊢
      exact hminus.sub_intCast hsqrt hq
    rw [if_pos (hd.zero_lt_iff.mpr (by exact_mod_cast hpos))]
    exact .apart hsame (isExactly_quotient hx ha h2a hplus hp) (isExactly_quotient hx ha h2a hless hq)

theorem abs_linear_le (hbound : b ^ 2 + |4 * a * c| ≤ 2 ^ 53) : |b| ≤ 2 ^ 27 := by
  refine abs_le_of_sq_le_sq ?_ (by norm_num)
  linarith [abs_nonneg (4 * a * c)]

theorem abs_constant_le (ha : a ≠ 0) (hbound : b ^ 2 + |4 * a * c| ≤ 2 ^ 53) : |c| ≤ 2 ^ 51 := by
  have hfactor : 1 ≤ |a| := Int.one_le_abs ha
  have hc : |c| ≤ |a| * |c| := le_mul_of_one_le_left (abs_nonneg c) hfactor
  rw [abs_mul, abs_mul, mul_assoc, show |(4 : ℤ)| = 4 from rfl] at hbound
  linarith [sq_nonneg b]

/-- The roots are those of the doubles that stand for the coefficients, whichever zero stands for zero. -/
theorem solve_areExactly (ha : a ≠ 0) (hk : 0 ≤ a * (p - q)) (hb : b = -(a * (p + q))) (hc : c = a * p * q)
    (h4a : |4 * a| ≤ 2 ^ 53) (hbound : b ^ 2 + |4 * a * c| ≤ 2 ^ 53) (hx : IsExactly x a) (hy : IsExactly y b)
    (hz : IsExactly z c) : ∃ r, solve x y z = .ok r ∧ r.AreExactly p q := by
  have hd := isExactly_discriminant hx hy hz h4a hbound
  have hsquare : b ^ 2 - 4 * a * c = (a * (p - q)) ^ 2 := by
    rw [hb, hc]
    ring
  rw [hsquare] at hd
  have hsmall := abs_linear_le hbound
  have hroot : |a * (p - q)| ≤ 2 ^ 27 := by
    refine abs_le_of_sq_le_sq ?_ (by norm_num)
    rw [← hsquare]
    linarith [neg_abs_le (4 * a * c)]
  have hp : |2 * a * p| ≤ 2 ^ 53 := by
    have hsum : 2 * a * p = -b + a * (p - q) := by
      rw [hb]
      ring
    rw [hsum]
    refine (abs_add_le _ _).trans ?_
    rw [abs_neg]
    linarith
  have hq : |2 * a * q| ≤ 2 ^ 53 := by
    have hdifference : 2 * a * q = -b - a * (p - q) := by
      rw [hb]
      ring
    rw [hdifference]
    refine (abs_sub _ _).trans ?_
    rw [abs_neg]
    linarith
  have h2a : |2 * a| ≤ 2 ^ 53 := by
    rw [abs_mul] at h4a ⊢
    refine le_trans (mul_le_mul_of_nonneg_right ?_ (abs_nonneg a)) h4a
    norm_num
  subst hb
  have hexact := ofDiscriminant_areExactly hx hy ha hd hk h2a hp hq ((le_abs_self _).trans (hroot.trans (by norm_num)))
  have hzero : ¬ (x == 0.0) = true := mt hx.beq_zero_iff.mp (by exact_mod_cast ha)
  refine ⟨_, ?_, hexact⟩
  unfold solve
  simp [hx.isFinite, hy.isFinite, hz.isFinite, hzero, hd.isFinite, hexact.all_isFinite]

/-- Whole roots are found exactly, the greater one first if the first coefficient is above zero and last otherwise. -/
theorem solve_integerRoots {a b c r₁ r₂ : ℤ} (ha : a ≠ 0) (hr : r₂ ≤ r₁) (hb : b = -(a * (r₁ + r₂)))
    (hc : c = a * r₁ * r₂) (h4a : |4 * a| ≤ 2 ^ 53) (hbound : b ^ 2 + |4 * a * c| ≤ 2 ^ 53) :
    ∃ r, solve (.ofInt a) (.ofInt b) (.ofInt c) = .ok r ∧ (0 < a → r.AreExactly r₁ r₂) ∧
      (a < 0 → r.AreExactly r₂ r₁) := by
  have hx : IsExactly (.ofInt a) a := by
    refine .ofInt ?_
    rw [abs_mul, show |(4 : ℤ)| = 4 from rfl] at h4a
    linarith
  have hy : IsExactly (.ofInt b) b := .ofInt ((abs_linear_le hbound).trans_lt (by norm_num))
  have hz : IsExactly (.ofInt c) c := .ofInt ((abs_constant_le ha hbound).trans_lt (by norm_num))
  rcases lt_or_gt_of_ne ha with hneg | hpos
  · have hk : 0 ≤ a * (r₂ - r₁) := mul_nonneg_of_nonpos_of_nonpos hneg.le (by linarith)
    obtain ⟨r, hsolve, hexact⟩ := solve_areExactly ha hk (by rw [hb, add_comm]) (by rw [hc, mul_right_comm]) h4a
      hbound hx hy hz
    exact ⟨r, hsolve, fun h => absurd hneg h.not_gt, fun _ => hexact⟩
  · have hk : 0 ≤ a * (r₁ - r₂) := mul_nonneg hpos.le (by linarith)
    obtain ⟨r, hsolve, hexact⟩ := solve_areExactly ha hk hb hc h4a hbound hx hy hz
    exact ⟨r, hsolve, fun _ => hexact, fun h => absurd hpos h.not_gt⟩

/-- The roots of `-x² + 94906265 x` are as far apart as the bound allows. -/
theorem solve_integerRoots_widest :
    ((94906265 : ℤ) ^ 2 + |4 * -1 * 0| ≤ 2 ^ 53) ∧ ∃ r, solve (.ofInt (-1)) (.ofInt 94906265) (.ofInt 0) = .ok r ∧
      r.AreExactly 0 94906265 := by
  have hbound : (94906265 : ℤ) ^ 2 + |4 * -1 * 0| ≤ 2 ^ 53 := by decide
  obtain ⟨r, hsolve, -, hneg⟩ := solve_integerRoots (by decide : (-1 : ℤ) ≠ 0) (by decide : (0 : ℤ) ≤ 94906265)
    (by decide : (94906265 : ℤ) = _) (by decide : (0 : ℤ) = _) (by decide) hbound
  exact ⟨hbound, r, hsolve, hneg (by decide)⟩

end TalkingCalculator
