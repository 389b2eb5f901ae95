import TalkingCalculator.Proofs.Binary.Order
import TalkingCalculator.Proofs.Binary.Products
import TalkingCalculator.Proofs.Decimal.Fixed
import TalkingCalculator.Equation.Roots

/-!
# Roots with four places

A displayed root denotes the nearest whole number of ten-thousandths, the even one of two, and has a minus if and only
if the root is below zero. So it is at most half of a ten-thousandth away from the root, and of two roots the greater one
is never displayed as the smaller one.
-/
namespace TalkingCalculator

open Float.Model.UnpackedFloat

/-- The number that a text denotes, which may start with a minus. -/
def denoted (text : String) : ℚ :=
  match text.toList with
  | '-' :: cs => -((Numeral.leading Text.asciiDigitValue? cs).decimal 0).value
  | cs => ((Numeral.leading Text.asciiDigitValue? cs).decimal 0).value

theorem Literal.value_leading (l : Literal) :
    ((Numeral.leading Text.asciiDigitValue? l.chars).decimal 0).value = l.value := by
  have hleading := l.leading_chars_append runEnds_nil
  rw [List.append_nil] at hleading
  rw [hleading, l.value_numeral]

theorem denoted_signed (s : Sign) (l : Literal) :
    denoted (.ofList (Style.signed s l.chars)) = (s.apply 1 : ℤ) * l.value := by
  unfold denoted
  rw [String.toList_ofList]
  cases s with
  | negative => simp [Style.signed, l.value_leading, Sign.apply]
  | positive =>
    have hminus : ∀ cs, l.chars ≠ '-' :: cs := by
      intro cs h
      exact absurd (l.runChar_of_mem (h ▸ List.mem_cons_self)) (by decide)
    -- with `hminus` the text is read by the second case
    simp [Style.signed, l.value_leading, Sign.apply]

structure IsNearestInteger (n : ℤ) (y : ℚ) : Prop where
  near : |y - n| ≤ 1 / 2
  even : |y - n| = 1 / 2 → Even n

namespace IsNearestInteger

variable {n n' : ℤ} {y y' : ℚ}

/-- Were the integers in the other order, both numbers would lie halfway between them, and both integers be even. -/
theorem mono (h : IsNearestInteger n y) (h' : IsNearestInteger n' y') (hle : y ≤ y') : n ≤ n' := by
  by_contra hlt
  have hnear := abs_le.mp h.near
  have hnear' := abs_le.mp h'.near
  have hstep : (n' : ℚ) + 1 ≤ n := by exact_mod_cast not_le.mp hlt
  have hbelow : y - n = -(1 / 2) := by linarith
  have habove : y' - n' = 1 / 2 := by linarith
  have heven := h.even (by rw [hbelow, abs_neg, abs_of_pos (by norm_num)])
  have heven' := h'.even (by rw [habove, abs_of_pos (by norm_num)])
  have hnext : n = n' + 1 := by
    have : (n : ℚ) = (n' + 1 : ℤ) := by
      push_cast
      linarith
    exact_mod_cast this
  rw [hnext] at heven
  exact Int.not_even_iff_odd.mpr heven'.add_one heven

theorem of_abs {q : ℕ} (h : IsNearestEven q y) (s : Sign) : IsNearestInteger (s.apply q) ((s.apply 1 : ℤ) * y) := by
  have hsub : ((s.apply 1 : ℤ) * y : ℚ) - (s.apply q : ℤ) = (s.apply 1 : ℤ) * (y - q) := by
    rw [Binary.apply_eq s q, mul_sub]
  have hdistance : |((s.apply 1 : ℤ) * y : ℚ) - (s.apply q : ℤ)| = |y - q| := by
    rw [hsub, abs_mul, Binary.abs_apply_one, one_mul]
  refine ⟨hdistance.trans_le h.near, fun hhalf => ?_⟩
  have heven := Nat.even_iff.mpr (h.even (hdistance.symm.trans hhalf))
  cases s <;> simpa [Sign.apply] using heven

end IsNearestInteger

theorem shownSign_mul_abs {v : Float} (hv : v.isFinite = true) :
    ((Fixed.shownSign v).apply 1 : ℤ) * |exactValue v| = exactValue v := by
  rcases Binary.eq_ofUnpacked_of_isFinite hv with ⟨s, rfl⟩ | ⟨s, m, e, h, hc, rfl⟩
  · rw [Binary.exactValue_zero, abs_zero, mul_zero]
  · rw [Fixed.shownSign_finite hc, Binary.exactValue_finite hc, Binary.apply_eq, mul_assoc, abs_mul,
      Binary.abs_apply_one, one_mul, abs_of_pos (by positivity : (0 : ℚ) < m * 2 ^ e)]

/-- What is shown for a finite double with fixed places. -/
theorem exists_shown {v : Float} (hv : v.isFinite = true) (places : ℕ) :
    ∃ l : Literal, l.IsPlain places ∧ Fixed.write places (v + 0.0) = .ofList (Style.signed (Fixed.shownSign v) l.chars) ∧
      ∃ n : ℤ, IsNearestInteger n (exactValue v * 10 ^ places) ∧
        denoted (Fixed.write places (v + 0.0)) = n / 10 ^ places := by
  obtain ⟨q, hq, hwrite⟩ := Fixed.exists_units hv places
  have hnearest := IsNearestInteger.of_abs hq (Fixed.shownSign v)
  rw [← mul_assoc, shownSign_mul_abs hv] at hnearest
  refine ⟨_, Fixed.isPlain_literal places q, hwrite, _, hnearest, ?_⟩
  rw [hwrite, denoted_signed, Fixed.value_literal, Binary.apply_eq _ q, mul_div_assoc]

def Roots.displayedWith (write : Float → String) : Roots → String
  | degenerate => degenerateMessage
  | twoReal x₁ x₂ => "x₁ = " ++ write x₁ ++ ", x₂ = " ++ write x₂
  | oneReal x => "x = " ++ write x
  | complex re im => "x₁ = " ++ write re ++ " + " ++ write im ++ "i, x₂ = " ++ write re ++ " - " ++ write im ++ "i"

theorem exists_tenThousandths {v : Float} (hv : v.isFinite = true) :
    ∃ n : ℤ, IsNearestInteger n (10000 * exactValue v) ∧ denoted (displayRoot v) = n / 10000 := by
  obtain ⟨-, -, -, n, hn, hdenoted⟩ := exists_shown hv 4
  have hpow : (10 : ℚ) ^ 4 = 10000 := by norm_num
  rw [hpow] at hn hdenoted
  exact ⟨n, mul_comm (exactValue v) 10000 ▸ hn, hdenoted⟩

theorem abs_sub_denoted_le {v : Float} (hv : v.isFinite = true) :
    |exactValue v - denoted (displayRoot v)| ≤ 1 / 20000 := by
  obtain ⟨n, hn, hdenoted⟩ := exists_tenThousandths hv
  have hnear := abs_le.mp hn.near
  rw [hdenoted, abs_le]
  constructor <;> linarith

theorem denoted_mono {v w : Float} (hv : v.isFinite = true) (hw : w.isFinite = true) (hle : v ≤ w) :
    denoted (displayRoot v) ≤ denoted (displayRoot w) := by
  obtain ⟨n, hn, hv'⟩ := exists_tenThousandths hv
  obtain ⟨n', hn', hw'⟩ := exists_tenThousandths hw
  have hvalue := (Binary.le_iff_exactValue hv hw).mp hle
  have hmono : (n : ℚ) ≤ n' := Int.cast_le.mpr (hn.mono hn' (by linarith))
  rw [hv', hw']
  exact div_le_div_of_nonneg_right hmono (by norm_num)

/-- Every number in the display of roots is rounded once to four places, with an even last digit where two are equally
near, and a minus tells that it is below zero. -/
theorem display_rounded {v : Float} (hv : v.isFinite = true) :
    (∀ r : Roots, r.display = r.displayedWith displayRoot) ∧
      (∃ l : Literal, l.IsPlain 4 ∧ displayRoot v = .ofList (Style.signed (Fixed.shownSign v) l.chars)) ∧
      (∃ n : ℤ, IsNearestInteger n (10000 * exactValue v) ∧ denoted (displayRoot v) = n / 10000) ∧
      |exactValue v - denoted (displayRoot v)| ≤ 1 / 20000 ∧
      ∀ w : Float, w.isFinite = true → v ≤ w → denoted (displayRoot v) ≤ denoted (displayRoot w) := by
  obtain ⟨l, hplain, hwrite, -⟩ := exists_shown hv 4
  refine ⟨fun r => ?_, ⟨l, hplain, hwrite⟩, exists_tenThousandths hv, abs_sub_denoted_le hv,
    fun w hw hle => denoted_mono hv hw hle⟩
  cases r <;> rfl

/-- Ten thousand times `-1/32` lies halfway between two integers. -/
theorem display_rounded_tie :
    displayRoot (-0.03125) = "-0.0312" ∧ |exactValue (-0.03125) - denoted "-0.0312"| ≤ 1 / 20000 := by
  have hwrite : displayRoot (-0.03125) = "-0.0312" := by decide +kernel
  obtain ⟨-, -, -, hnear, -⟩ := display_rounded (by decide +kernel : (-0.03125 : Float).isFinite = true)
  exact ⟨hwrite, hwrite ▸ hnear⟩

/-- Nines carry into the whole digits, and a zero has no sign. -/
example : displayRoot 9.99996 = "10.0000" ∧ displayRoot (-0.0) = "0.0000" := by
  decide +kernel

end TalkingCalculator
