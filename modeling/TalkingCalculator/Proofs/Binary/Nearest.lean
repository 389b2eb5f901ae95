import TalkingCalculator.Proofs.Binary.Rounding

/-!
# The nearest double

What rounding gives is the best that a double can do: no finite double is closer, of two that are equally
close it is the one with the even mantissa, and it is infinite from halfway beyond the largest double on.
-/
namespace TalkingCalculator

open Float.Model (Format UnpackedFloat)
open Float.Model.UnpackedFloat

def exactValue (v : Float) : ℚ :=
  match v.toModel.unpack with
  | .finite s m e _ => s.apply m * 2 ^ e
  | _ => 0

def mantissa (v : Float) : ℕ :=
  match v.toModel.unpack with
  | .finite _ m _ _ => m
  | _ => 0

/-- `v` is what the number `x`, which is not negative, rounds to. -/
structure IsCorrectlyRounded (x : ℚ) (v : Float) : Prop where
  overflow : 2 ^ 1024 - 2 ^ 970 ≤ x → v = Binary.ofUnpacked (.infinity .positive)
  finite : x < 2 ^ 1024 - 2 ^ 970 → v.isFinite = true
  nearest : v.isFinite = true → ∀ w : Float, w.isFinite = true → |x - exactValue v| ≤ |x - exactValue w|
  even : v.isFinite = true → ∀ w : Float, w.isFinite = true → exactValue w ≠ exactValue v →
    |x - exactValue w| = |x - exactValue v| → mantissa v % 2 = 0
  ne_neg_zero : v ≠ -0.0

namespace IsNearestEven

variable {q : ℕ} {y : ℚ}

/-- Two different numbers of the grid are a whole unit apart. -/
theorem one_le_abs_sub_add {k : ℤ} (hk : k ≠ q) : 1 ≤ |y - q| + |y - k| := by
  have hone : (1 : ℚ) ≤ |(k : ℚ) - q| := by
    have : 1 ≤ |k - q| := Int.one_le_abs (sub_ne_zero.mpr hk)
    exact_mod_cast this
  calc (1 : ℚ) ≤ |(k : ℚ) - q| := hone
    _ = |(y - q) - (y - k)| := by ring_nf
    _ ≤ |y - q| + |y - k| := abs_sub _ _

theorem le_abs_sub (h : IsNearestEven q y) (k : ℤ) : |y - q| ≤ |y - k| := by
  by_cases hk : k = q
  · rw [hk, Int.cast_natCast]
  · have hapart := one_le_abs_sub_add (y := y) hk
    have hnear := h.near
    linarith

theorem even_of_abs_sub_eq (h : IsNearestEven q y) {k : ℤ} (hk : k ≠ q) (heq : |y - k| = |y - q|) :
    q % 2 = 0 := by
  have hapart := one_le_abs_sub_add (y := y) hk
  exact h.even (le_antisymm h.near (by linarith))

/-- The other side of a tie is odd. -/
theorem odd_of_abs_sub_eq (h : IsNearestEven q y) {k : ℤ} (hk : k ≠ q) (heq : |y - k| = |y - q|) :
    k % 2 = 1 := by
  have heven := h.even_of_abs_sub_eq hk heq
  have hknear := abs_le.mp (heq.trans_le h.near)
  have hqnear := abs_le.mp h.near
  have hup : k ≤ q + 1 := by
    have : (k : ℚ) ≤ (q + 1 : ℤ) := by
      push_cast
      linarith
    exact_mod_cast this
  have hdown : q ≤ k + 1 := by
    have : ((q : ℤ) : ℚ) ≤ (k + 1 : ℤ) := by
      push_cast
      linarith
    exact_mod_cast this
  omega

theorem le_of_lt {n : ℕ} (h : IsNearestEven q y) (hy : y < n + 1 / 2) : q ≤ n := by
  have hnear := (abs_le.mp h.near).1
  have : (q : ℚ) < (n + 1 : ℕ) := by
    push_cast
    linarith
  exact Nat.lt_succ_iff.mp (by exact_mod_cast this)

theorem le_of_le {n : ℕ} (h : IsNearestEven q y) (hy : n ≤ y) : n ≤ q := by
  have hnear := (abs_le.mp h.near).2
  have : (n : ℚ) < (q + 1 : ℕ) := by
    push_cast
    linarith
  exact Nat.lt_succ_iff.mp (by exact_mod_cast this)

end IsNearestEven

namespace Binary

variable {s : Sign} {x : ℚ} {q : ℕ} {t : ℤ}

theorem exactValue_finite {m : ℕ} {e : ℤ} {h : 0 < m} (hc : Canonical m e) :
    exactValue (ofUnpacked (.finite s m e h)) = s.apply m * 2 ^ e := by
  unfold exactValue
  rw [unpack_ofUnpacked_finite hc]

theorem mantissa_finite {m : ℕ} {e : ℤ} {h : 0 < m} (hc : Canonical m e) :
    mantissa (ofUnpacked (.finite s m e h)) = m := by
  unfold mantissa
  rw [unpack_ofUnpacked_finite hc]

theorem exactValue_zero : exactValue (ofUnpacked (.zero s)) = 0 := by
  unfold exactValue
  rw [unpack_ofUnpacked_zero]

theorem exists_isNearestEven {y : ℚ} (hy : 0 ≤ y) : ∃ q, IsNearestEven q y := by
  refine ⟨roundDiv y.num.toNat y.den, ?_⟩
  have hround := isNearestEven_roundDiv y.num.toNat y.den_pos
  have hnum : ((y.num.toNat : ℕ) : ℚ) = y.num := by
    exact_mod_cast Int.toNat_of_nonneg (Rat.num_nonneg.mpr hy)
  rwa [hnum, Rat.num_div_den] at hround

theorem nearest_zero : nearest s 0 = ofUnpacked (.zero s) := by
  cases s <;> decide +kernel

end Binary

namespace IsScale

variable {x : ℚ} {t : ℤ}

theorem units_lt (h : IsScale x t) : x / 2 ^ t < 2 ^ 53 := by
  rw [div_lt_iff₀ (by positivity)]
  have := h.lt
  rwa [zpow_add₀ two_ne_zero] at this

theorem le_units (h : IsScale x t) : 2 ^ 52 ≤ x / 2 ^ t ∨ t = -1074 := by
  refine h.le.imp_left fun hle => ?_
  rw [le_div_iff₀ (by positivity)]
  rwa [zpow_add₀ two_ne_zero] at hle

theorem le_of_lt_zpow (h : IsScale x t) {n : ℤ} (hx : x < 2 ^ n) (hn : -1021 ≤ n) : t ≤ n - 53 := by
  rcases h.le with hle | heq
  · have := two_zpow_lt_iff.mp (hle.trans_lt hx)
    omega
  · omega

theorem le_of_zpow_le (h : IsScale x t) {n : ℤ} (hx : 2 ^ n ≤ x) : n - 52 ≤ t := by
  have := two_zpow_lt_iff.mp (hx.trans_lt h.lt)
  omega

end IsScale

namespace Binary

variable {s : Sign} {x : ℚ} {q : ℕ} {t : ℤ}

theorem mantissa_le (ht : IsScale x t) (hq : IsNearestEven q (x / 2 ^ t)) : q ≤ 2 ^ 53 := by
  refine hq.le_of_lt ?_
  push_cast
  linarith [ht.units_lt]

theorem mantissa_full (ht : IsScale x t) (hq : IsNearestEven q (x / 2 ^ t)) : 2 ^ 52 ≤ q ∨ t = -1074 := by
  refine ht.le_units.imp_left fun hle => hq.le_of_le ?_
  exact_mod_cast hle

theorem overflow_eq : (2 : ℚ) ^ 1024 - 2 ^ 970 = (2 ^ 53 - 1 / 2) * 2 ^ (971 : ℤ) := by
  have hfull : (2 : ℚ) ^ 1024 = 2 ^ 54 * 2 ^ 970 := (pow_add 2 54 970)
  have hlast : (2 : ℚ) ^ (971 : ℤ) = 2 ^ 970 * 2 := by
    rw [show (971 : ℤ) = (970 + 1 : ℕ) from rfl, zpow_natCast, pow_succ]
  rw [hfull, hlast]
  generalize (2 : ℚ) ^ 970 = p
  ring

theorem overflow_le_iff : 2 ^ 1024 - 2 ^ 970 ≤ x ↔ 2 ^ 53 - 1 / 2 ≤ x / 2 ^ (971 : ℤ) := by
  rw [overflow_eq, le_div_iff₀ (zpow_pos two_pos _)]

/-- From halfway beyond the largest double on, numbers round to infinity. -/
theorem nearest_of_overflow (hx : 2 ^ 1024 - 2 ^ 970 ≤ x) : nearest s x = ofUnpacked (.infinity s) := by
  have hlast := overflow_le_iff.mp hx
  have hlarge : (2 : ℚ) ^ (1023 : ℤ) ≤ x := by
    have : (2 : ℚ) ^ 52 ≤ x / 2 ^ (971 : ℤ) := le_trans (by norm_num) hlast
    rw [le_div_iff₀ (by positivity)] at this
    exact (zpow_add₀ (two_ne_zero : (2 : ℚ) ≠ 0) 52 971).trans_le this
  have hpos : 0 < x := lt_of_lt_of_le (by positivity) hlarge
  have ht := IsScale.of_log hpos
  generalize max (Int.log 2 x - 52) (-1074) = t at ht
  obtain ⟨q, hq⟩ := exists_isNearestEven (div_nonneg hpos.le (zpow_nonneg two_pos.le t))
  have hscale : 971 ≤ t := ht.le_of_zpow_le hlarge
  have hfull : 2 ^ 52 ≤ q := (mantissa_full ht hq).resolve_right (by omega)
  rw [nearest_eq hpos ht hq]
  unfold settle
  by_cases hq53 : q < 2 ^ 53
  · have hne : t ≠ 971 := by
      rintro rfl
      generalize x / 2 ^ (971 : ℤ) = y at hlast hq
      have hle : 2 ^ 53 - 1 ≤ q := by
        refine hq.le_of_le (le_trans ?_ hlast)
        norm_num
      have hq' : q = 2 ^ 53 - 1 := by omega
      have hhalf : 1 / 2 ≤ y - q := by
        rw [hq']
        norm_num
        linarith
      have := hq.even (le_antisymm hq.near (hhalf.trans (le_abs_self _)))
      omega
    rw [if_pos hq53, assemble, dif_neg (by omega), ofUnpacked_finite_of_lt (by omega)]
  · rw [if_neg hq53, assemble, dif_neg (by norm_num), ofUnpacked_finite_of_lt (by omega)]

/-- Up to half of the smallest double numbers round to zero. -/
theorem nearest_of_underflow (hx : 0 ≤ x) (hlt : x < 2 ^ (-1075 : ℤ)) :
    nearest s x = ofUnpacked (.zero s) := by
  rcases hx.eq_or_lt with rfl | hpos
  · exact nearest_zero
  have ht : IsScale x (-1074) := ⟨le_rfl, hlt.trans (two_zpow_lt_iff.mpr (by norm_num)), Or.inr rfl⟩
  have hunits : x / 2 ^ (-1074 : ℤ) < 1 / 2 := by
    rw [div_lt_iff₀ (by positivity)]
    refine hlt.trans_eq ?_
    rw [show (-1075 : ℤ) = -1074 - 1 by norm_num, zpow_sub_one₀ two_ne_zero, mul_comm, one_div]
  have hq : IsNearestEven 0 (x / 2 ^ (-1074 : ℤ)) := by
    have habs : |x / 2 ^ (-1074 : ℤ) - (0 : ℕ)| = x / 2 ^ (-1074 : ℤ) := by
      rw [Nat.cast_zero, sub_zero, abs_of_nonneg (by positivity)]
    exact ⟨by rw [habs]; exact hunits.le, fun _ => rfl⟩
  rw [nearest_eq hpos ht hq]
  rfl

/-- Below that, the rounded mantissa is that of a double. -/
theorem settle_cases (ht : IsScale x t) (hq : IsNearestEven q (x / 2 ^ t)) (hx : x < 2 ^ 1024 - 2 ^ 970) :
    settle s q t = .zero s ∧ q = 0 ∨
      ∃ m e h, settle s q t = .finite s m e h ∧ Canonical m e ∧ (m : ℚ) * 2 ^ e = q * 2 ^ t ∧
        (q % 2 = 0 → m % 2 = 0) := by
  have hscale : t ≤ 971 := by
    have hlt : x < 2 ^ (1024 : ℤ) := hx.trans (by norm_num)
    exact ht.le_of_lt_zpow hlt (by norm_num)
  unfold settle
  by_cases hq53 : q < 2 ^ 53
  · rw [if_pos hq53]
    by_cases hzero : q = 0
    · exact Or.inl ⟨by rw [assemble, dif_pos hzero], hzero⟩
    · exact Or.inr ⟨q, t, Nat.pos_of_ne_zero hzero, by rw [assemble, dif_neg hzero],
        ⟨Nat.pos_of_ne_zero hzero, hq53, ht.le_scale, hscale, mantissa_full ht hq⟩, rfl, id⟩
  · have hq' : q = 2 ^ 53 := le_antisymm (mantissa_le ht hq) (not_lt.mp hq53)
    have hlt : t < 971 := by
      refine lt_of_le_of_ne hscale ?_
      rintro rfl
      have hunits : x / 2 ^ (971 : ℤ) < 2 ^ 53 - 1 / 2 := lt_of_not_ge (mt overflow_le_iff.mpr (not_le.mpr hx))
      have hle : q ≤ 2 ^ 53 - 1 := by
        refine hq.le_of_lt (hunits.trans_eq ?_)
        norm_num
      omega
    rw [if_neg hq53]
    refine Or.inr ⟨2 ^ 52, t + 1, by norm_num, by rw [assemble, dif_neg (by norm_num)],
      ⟨by norm_num, by norm_num, by have := ht.le_scale; omega, by omega, Or.inl le_rfl⟩, ?_, fun _ => rfl⟩
    rw [hq', zpow_add_one₀ two_ne_zero]
    push_cast
    ring

theorem apply_mul_lt (s : Sign) {m : ℕ} {e : ℤ} (hc : Canonical m e) :
    ((s.apply m : ℤ) : ℚ) * 2 ^ e < 2 ^ (53 + e) := by
  have happly : s.apply m < 2 ^ 53 := by
    have := hc.lt
    cases s <;> simp only [Sign.apply] <;> omega
  have happly' : ((s.apply m : ℤ) : ℚ) < 2 ^ (53 : ℤ) := by exact_mod_cast happly
  rw [zpow_add₀ two_ne_zero]
  exact mul_lt_mul_of_pos_right happly' (zpow_pos two_pos e)

/-- Every finite double lies on the grid of a scale or below the mantissas that are full at that scale. -/
theorem exactValue_cases {w : Float} (hw : w.isFinite = true) (t : ℤ) :
    (∃ k : ℤ, exactValue w = k * 2 ^ t) ∨ -1074 < t ∧ exactValue w < 2 ^ (52 + t) := by
  rcases eq_ofUnpacked_of_isFinite hw with ⟨s, rfl⟩ | ⟨s, m, e, h, hc, rfl⟩
  · exact Or.inl ⟨0, by rw [exactValue_zero, Int.cast_zero, zero_mul]⟩
  rw [exactValue_finite hc]
  by_cases hle : t ≤ e
  · left
    refine ⟨s.apply m * 2 ^ (e - t).toNat, ?_⟩
    have hexponent : ((e - t).toNat : ℤ) = e - t := by omega
    push_cast
    rw [mul_assoc, ← zpow_natCast, hexponent, ← zpow_add₀ two_ne_zero, sub_add_cancel]
  · right
    have hge := hc.le_exponent
    refine ⟨by omega, ?_⟩
    exact (apply_mul_lt s hc).trans_le (zpow_le_zpow_right₀ one_le_two (by omega))

theorem abs_sub_grid (hx : x = x / 2 ^ t * 2 ^ t) (k : ℚ) : |x - k * 2 ^ t| = |x / 2 ^ t - k| * 2 ^ t := by
  conv_lhs => rw [hx]
  rw [← sub_mul, abs_mul, abs_of_pos (zpow_pos two_pos t : (0 : ℚ) < 2 ^ t)]

theorem eq_units_mul (x : ℚ) (t : ℤ) : x = x / 2 ^ t * 2 ^ t :=
  (div_mul_cancel₀ x (zpow_ne_zero t two_ne_zero)).symm

/-- The smallest full mantissa of a scale lies between `x` and what is below that mantissa. -/
theorem abs_sub_lt_of_small (ht : IsScale x t) (hq : IsNearestEven q (x / 2 ^ t)) (hmin : -1074 < t) {c : ℚ}
    (hc : c < 2 ^ (52 + t)) : |x - q * 2 ^ t| < |x - c| := by
  have hfull : (2 : ℚ) ^ 52 ≤ x / 2 ^ t := ht.le_units.resolve_right (by omega)
  have hle := hq.le_abs_sub (2 ^ 52)
  rw [Int.cast_pow, Int.cast_ofNat, abs_of_nonneg (sub_nonneg.mpr hfull)] at hle
  have hpow : (0 : ℚ) < 2 ^ t := zpow_pos two_pos t
  calc |x - q * 2 ^ t| = |x / 2 ^ t - q| * 2 ^ t := abs_sub_grid (eq_units_mul x t) q
    _ ≤ (x / 2 ^ t - 2 ^ 52) * 2 ^ t := mul_le_mul_of_nonneg_right hle hpow.le
    _ = x - 2 ^ (52 + t) := by rw [sub_mul, ← eq_units_mul x t, zpow_add₀ two_ne_zero, zpow_ofNat]
    _ < x - c := sub_lt_sub_left hc x
    _ ≤ |x - c| := le_abs_self _

/-- No finite double is closer than the rounded mantissa, and one that is as close is a tie. -/
theorem le_abs_sub_exactValue (ht : IsScale x t) (hq : IsNearestEven q (x / 2 ^ t)) {w : Float}
    (hw : w.isFinite = true) :
    |x - q * 2 ^ t| ≤ |x - exactValue w| ∧
      (exactValue w ≠ q * 2 ^ t → |x - exactValue w| = |x - q * 2 ^ t| → q % 2 = 0) := by
  rcases exactValue_cases hw t with ⟨k, hk⟩ | ⟨hmin, hsmall⟩
  · have hpow : (0 : ℚ) < 2 ^ t := zpow_pos two_pos t
    rw [hk, abs_sub_grid (eq_units_mul x t), abs_sub_grid (eq_units_mul x t)]
    refine ⟨mul_le_mul_of_nonneg_right (hq.le_abs_sub k) hpow.le, fun hne heq => ?_⟩
    refine hq.even_of_abs_sub_eq ?_ (mul_right_cancel₀ hpow.ne' heq)
    rintro rfl
    exact hne (by rw [Int.cast_natCast])
  · have hlt := abs_sub_lt_of_small ht hq hmin hsmall
    exact ⟨hlt.le, fun _ heq => absurd heq hlt.ne'⟩

/-- What a positive number below that rounds to has the value of its rounded mantissa. -/
theorem nearest_cases (hpos : 0 < x) (ht : IsScale x t) (hq : IsNearestEven q (x / 2 ^ t))
    (hx : x < 2 ^ 1024 - 2 ^ 970) :
    (nearest .positive x).isFinite = true ∧ exactValue (nearest .positive x) = q * 2 ^ t ∧
      (q % 2 = 0 → mantissa (nearest .positive x) % 2 = 0) ∧ nearest .positive x ≠ -0.0 := by
  rw [nearest_eq hpos ht hq]
  rcases settle_cases (s := .positive) ht hq hx with ⟨hsettle, rfl⟩ | ⟨m, e, h, hsettle, hc, hvalue, heven⟩
  · rw [hsettle]
    exact ⟨rfl, by rw [exactValue_zero]; simp, fun _ => rfl, by decide⟩
  · rw [hsettle]
    refine ⟨isFinite_ofUnpacked_finite hc, ?_, ?_, ?_⟩
    · rw [exactValue_finite hc, ← hvalue]
      rfl
    · rw [mantissa_finite hc]
      exact heven
    · intro heq
      have hunpack := unpack_ofUnpacked_finite (s := .positive) (h := h) hc
      rw [heq] at hunpack
      cases hunpack

theorem isCorrectlyRounded_nearest (hx : 0 ≤ x) : IsCorrectlyRounded x (nearest .positive x) := by
  by_cases hover : 2 ^ 1024 - 2 ^ 970 ≤ x
  · rw [nearest_of_overflow hover]
    have hinfinite : ¬ (ofUnpacked (.infinity .positive)).isFinite = true := by decide
    exact ⟨fun _ => rfl, fun hlt => absurd hover (not_le.mpr hlt), fun h => absurd h hinfinite,
      fun h => absurd h hinfinite, by decide⟩
  have hlt := not_le.mp hover
  rcases hx.eq_or_lt with rfl | hpos
  · rw [nearest_zero]
    refine ⟨fun h => absurd h hover, fun _ => rfl, fun _ w _ => ?_, fun _ _ _ _ _ => rfl, by decide⟩
    rw [exactValue_zero, sub_zero, abs_zero]
    exact abs_nonneg _
  · have ht := IsScale.of_log hpos
    obtain ⟨q, hq⟩ := exists_isNearestEven (div_nonneg hpos.le (zpow_nonneg two_pos.le _))
    obtain ⟨hfinite, hvalue, heven, hne⟩ := nearest_cases hpos ht hq hlt
    refine ⟨fun h => absurd h hover, fun _ => hfinite, fun _ w hw => ?_, fun _ w hw => ?_, hne⟩
    · rw [hvalue]
      exact (le_abs_sub_exactValue ht hq hw).1
    · rw [hvalue]
      intro hother htie
      exact heven ((le_abs_sub_exactValue ht hq hw).2 hother htie)

theorem eq_of_mantissa_mul_eq {m m' : ℕ} {e e' : ℤ} (hc : Canonical m e) (hc' : Canonical m' e')
    (heq : (m : ℚ) * 2 ^ e = m' * 2 ^ e') : m = m' ∧ e = e' := by
  have hexponent : e = e' := by
    by_contra hne
    wlog hlt : e < e' generalizing m m' e e'
    · exact this hc' hc heq.symm (Ne.symm hne) (by omega)
    have hfull : 2 ^ 52 ≤ m' := hc'.full.resolve_right (by have := hc.le_exponent; omega)
    have hm : m = m' * 2 ^ (e' - e).toNat := by
      have hdiff : ((e' - e).toNat : ℤ) = e' - e := by omega
      have hcast : (m : ℚ) = m' * 2 ^ (e' - e).toNat := by
        rw [← zpow_natCast, hdiff, zpow_sub₀ two_ne_zero, ← mul_div_assoc, ← heq,
          mul_div_cancel_right₀ _ (zpow_ne_zero e two_ne_zero)]
      exact_mod_cast hcast
    have hstep : 2 ^ 1 ≤ 2 ^ (e' - e).toNat := Nat.pow_le_pow_right two_pos (by omega)
    have := hc.lt
    have := Nat.mul_le_mul hfull hstep
    omega
  subst hexponent
  exact ⟨by exact_mod_cast mul_right_cancel₀ (zpow_ne_zero e two_ne_zero) heq, rfl⟩

theorem apply_mul_ne_zero (s : Sign) {m : ℕ} (h : 0 < m) (e : ℤ) : ((s.apply m : ℤ) : ℚ) * 2 ^ e ≠ 0 := by
  have happly : s.apply m ≠ 0 := by
    cases s <;> simp only [Sign.apply] <;> omega
  exact mul_ne_zero (Int.cast_ne_zero.mpr happly) (zpow_ne_zero e two_ne_zero)

theorem apply_mul_inj {s s' : Sign} {m m' : ℕ} {e e' : ℤ} (h : 0 < m) (h' : 0 < m')
    (heq : ((s.apply m : ℤ) : ℚ) * 2 ^ e = (s'.apply m' : ℤ) * 2 ^ e') :
    s = s' ∧ (m : ℚ) * 2 ^ e = m' * 2 ^ e' := by
  have hpos : (0 : ℚ) < m * 2 ^ e := by positivity
  have hpos' : (0 : ℚ) < m' * 2 ^ e' := by positivity
  cases s <;> cases s' <;> simp only [Sign.apply, Int.cast_neg, Int.cast_natCast] at heq
  · exact ⟨rfl, by linarith⟩
  · linarith
  · linarith
  · exact ⟨rfl, heq⟩

theorem eq_positive_of_ne {s : Sign} (h : ofUnpacked (.zero s) ≠ -0.0) : s = .positive := by
  cases s with
  | positive => rfl
  | negative => exact absurd rfl h

theorem exactValue_inj {v w : Float} (hv : v.isFinite = true) (hw : w.isFinite = true) (hv0 : v ≠ -0.0)
    (hw0 : w ≠ -0.0) (heq : exactValue v = exactValue w) : v = w := by
  rcases eq_ofUnpacked_of_isFinite hv with ⟨s, rfl⟩ | ⟨s, m, e, h, hc, rfl⟩ <;>
    rcases eq_ofUnpacked_of_isFinite hw with ⟨s', rfl⟩ | ⟨s', m', e', h', hc', rfl⟩
  · rw [eq_positive_of_ne hv0, eq_positive_of_ne hw0]
  · rw [exactValue_zero, exactValue_finite hc'] at heq
    exact absurd heq.symm (apply_mul_ne_zero s' h' e')
  · rw [exactValue_zero, exactValue_finite hc] at heq
    exact absurd heq (apply_mul_ne_zero s h e)
  · rw [exactValue_finite hc, exactValue_finite hc'] at heq
    obtain ⟨rfl, habs⟩ := apply_mul_inj h h' heq
    obtain ⟨rfl, rfl⟩ := eq_of_mantissa_mul_eq hc hc' habs
    rfl

/-- A full mantissa at the scale `t` leaves a double no places below `t`. -/
theorem le_exponent_of_full {m : ℕ} {e : ℤ} {s : Sign} (hc : Canonical m e) {k : ℤ} (hfull : 2 ^ 52 ≤ k)
    (hk : ((s.apply m : ℤ) : ℚ) * 2 ^ e = k * 2 ^ t) : t ≤ e := by
  have hfull' : (2 : ℚ) ^ (52 : ℤ) ≤ k := by exact_mod_cast hfull
  have hlt : (2 : ℚ) ^ (52 + t) < 2 ^ (53 + e) := by
    calc (2 : ℚ) ^ (52 + t) = 2 ^ (52 : ℤ) * 2 ^ t := zpow_add₀ two_ne_zero _ _
      _ ≤ k * 2 ^ t := mul_le_mul_of_nonneg_right hfull' (zpow_pos two_pos t).le
      _ = (s.apply m : ℤ) * 2 ^ e := hk.symm
      _ < 2 ^ (53 + e) := apply_mul_lt s hc
  have := two_zpow_lt_iff.mp hlt
  omega

/-- A double on the grid of a scale has no more places than that, or it is below the full mantissas. -/
theorem even_of_mantissa_even {v : Float} (hv : v.isFinite = true) (heven : mantissa v % 2 = 0) {k : ℤ}
    (hk : exactValue v = k * 2 ^ t) (hfull : 2 ^ 52 ≤ k ∨ t = -1074) : k % 2 = 0 := by
  rcases eq_ofUnpacked_of_isFinite hv with ⟨s, rfl⟩ | ⟨s, m, e, h, hc, rfl⟩
  · rw [exactValue_zero] at hk
    have : (k : ℚ) = 0 := (mul_eq_zero.mp hk.symm).resolve_right (zpow_ne_zero t two_ne_zero)
    rw [show k = 0 by exact_mod_cast this]
    rfl
  rw [exactValue_finite hc] at hk
  rw [mantissa_finite hc] at heven
  have hle : t ≤ e := by
    rcases hfull with hfull | rfl
    · exact le_exponent_of_full hc hfull hk
    · exact hc.le_exponent
  have hdiff : ((e - t).toNat : ℤ) = e - t := by omega
  have hcast : (k : ℚ) = (s.apply m : ℤ) * 2 ^ (e - t).toNat := by
    rw [← zpow_natCast, hdiff, zpow_sub₀ two_ne_zero, ← mul_div_assoc, hk,
      mul_div_cancel_right₀ _ (zpow_ne_zero t two_ne_zero)]
  have hmul : k = s.apply m * 2 ^ (e - t).toNat := by exact_mod_cast hcast
  have hdvd : (2 : ℤ) ∣ s.apply m := by
    cases s <;> simp only [Sign.apply] <;> omega
  rw [hmul]
  exact Int.emod_eq_zero_of_dvd (hdvd.mul_right _)

theorem full_of_near (ht : IsScale x t) {k : ℤ} (hk : |x / 2 ^ t - k| ≤ 1 / 2) : 2 ^ 52 ≤ k ∨ t = -1074 := by
  refine ht.le_units.imp_left fun hle => ?_
  have hnear := abs_le.mp hk
  have hcast : ((2 ^ 52 : ℤ) : ℚ) < (k + 1 : ℤ) := by
    push_cast
    linarith
  have hlt : (2 ^ 52 : ℤ) < k + 1 := by exact_mod_cast hcast
  omega

/-- Only one double is correctly rounded. Of another one that were as close, both mantissas would be even, but
the two sides of a tie are neighbours on the grid. -/
theorem eq_nearest_of_isCorrectlyRounded {v : Float} (hx : 0 ≤ x) (hv : IsCorrectlyRounded x v) :
    v = nearest .positive x := by
  have hn := isCorrectlyRounded_nearest hx
  by_cases hover : 2 ^ 1024 - 2 ^ 970 ≤ x
  · rw [hv.overflow hover, hn.overflow hover]
  have hlt := not_le.mp hover
  have hvf := hv.finite hlt
  have hnf := hn.finite hlt
  have hdist : |x - exactValue v| = |x - exactValue (nearest .positive x)| :=
    le_antisymm (hv.nearest hvf _ hnf) (hn.nearest hnf _ hvf)
  apply exactValue_inj hvf hnf hv.ne_neg_zero hn.ne_neg_zero
  by_contra hne
  have hveven := hv.even hvf _ hnf (Ne.symm hne) hdist.symm
  rcases hx.eq_or_lt with rfl | hpos
  · rw [nearest_zero, exactValue_zero, sub_zero, abs_zero, zero_sub, abs_neg, abs_eq_zero] at hdist
    exact hne (by rw [hdist, nearest_zero, exactValue_zero])
  have ht := IsScale.of_log hpos
  generalize max (Int.log 2 x - 52) (-1074) = t at ht
  obtain ⟨q, hq⟩ := exists_isNearestEven (div_nonneg hpos.le (zpow_nonneg two_pos.le t))
  rw [(nearest_cases hpos ht hq hlt).2.1] at hdist hne
  rcases exactValue_cases hvf t with ⟨k, hk⟩ | ⟨hmin, hsmall⟩
  · have hkq : k ≠ q := by
      rintro rfl
      exact hne (by rw [hk, Int.cast_natCast])
    rw [hk, abs_sub_grid (eq_units_mul x t), abs_sub_grid (eq_units_mul x t)] at hdist
    have htie := mul_right_cancel₀ (zpow_ne_zero t two_ne_zero) hdist
    have hodd := hq.odd_of_abs_sub_eq hkq htie
    have hfull := full_of_near ht (htie.trans_le hq.near)
    have heven := even_of_mantissa_even hvf hveven hk hfull
    omega
  · exact absurd hdist (abs_sub_lt_of_small ht hq hmin hsmall).ne'

end Binary

end TalkingCalculator
