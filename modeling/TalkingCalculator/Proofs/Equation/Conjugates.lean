import TalkingCalculator.Proofs.Decimal.Fixed
import TalkingCalculator.Proofs.Equation.Discriminant

/-!
# Complex roots

The imaginary part is a square root divided by twice the first coefficient, and has the sign of that. It is displayed
after a plus and after a minus, with its own sign, so that two signs meet where the first coefficient is negative.
-/
namespace TalkingCalculator

open Binary
open Float.Model.UnpackedFloat (Sign)

variable {a b c re im : Float} {r : Roots}

theorem beq_zero_of_ok (h : solve a b c = .ok r) (hr : r ≠ .degenerate) : (a == 0.0) = false := by
  by_contra hzero
  unfold solve at h
  rw [Bool.not_eq_false] at hzero
  simp only [hzero, if_true] at h
  split_ifs at h
  exact hr (Except.ok.inj h).symm

theorem sign?_of_not_lt (hfinite : a.isFinite = true) (hpos : ¬ 0.0 < a) (hzero : ¬ (a == 0.0) = true) :
    sign? a = some .negative := by
  obtain ⟨s, hs⟩ := exists_sign hfinite
  cases s with
  | negative => exact hs
  | positive => exact absurd (zero_lt_iff.mpr ⟨hs, Bool.eq_false_iff.mpr hzero⟩) hpos

/-- The root is not negative, and twice the first coefficient has its sign, even if it is infinite. -/
theorem sign?_imaginaryPart (h : solve a b c = .ok (.complex re im)) : sign? im = sign? a := by
  have hsolved := isSolved_of_ok (beq_zero_of_ok h nofun) h
  have him : im.isFinite = true := List.all_eq_true.mp hsolved.finite_roots im (by simp [Roots.values])
  have hroots := hsolved.roots
  unfold Roots.ofDiscriminant at hroots
  split_ifs at hroots with hpos hzero
  cases hroots
  have hd := sign?_of_not_lt hsolved.finite_discriminant hpos hzero
  obtain ⟨s, hs⟩ := exists_sign hsolved.finite_a
  have htwice : sign? (2.0 * a) = some (.positive * s) := sign?_mul rfl hsolved.finite_a rfl hs
  rw [sign?_div (sign?_sqrt (sign?_neg hd)) htwice (isNaN_of_isFinite him), hs]
  cases s <;> rfl

def conjugatePair (s : Sign) (real : Literal) (t : Sign) (imaginary : Literal) : String :=
  let re := String.ofList (Style.signed s real.chars)
  let im := String.ofList (Style.signed t imaginary.chars)
  "x₁ = " ++ re ++ " + " ++ im ++ "i, x₂ = " ++ re ++ " - " ++ im ++ "i"

/-- What is displayed is the pair of the two parts, rounded to four places. The imaginary part has the sign of the first
coefficient, hence it is without a sign if that is positive. -/
theorem display_complex {a b c : String} (h : solveTexts a b c = .ok (.complex re im)) :
    ∃ real imaginary : Literal, real.IsFixed 4 |exactValue re| ∧ imaginary.IsFixed 4 |exactValue im| ∧
      (Roots.complex re im).display = conjugatePair (Fixed.shownSign re) real (Fixed.shownSign im) imaginary ∧
      (0.0 < readCoefficient a ∧ 0.0 ≤ im ∧ Fixed.shownSign im = .positive ∨
        readCoefficient a < 0.0 ∧ im ≤ 0.0) := by
  have hzero : (readCoefficient a == 0.0) = false := beq_zero_of_ok h nofun
  have hsolved := isSolved_of_ok hzero h
  have hvalues := List.all_eq_true.mp hsolved.finite_roots
  obtain ⟨real, hre, hreal⟩ := Fixed.exists_isFixed (hvalues re (by simp [Roots.values])) 4
  obtain ⟨imaginary, him, himaginary⟩ := Fixed.exists_isFixed (hvalues im (by simp [Roots.values])) 4
  refine ⟨real, imaginary, hre, him, ?_, ?_⟩
  · unfold conjugatePair
    rw [← hreal, ← himaginary]
    rfl
  · have hsign := sign?_imaginaryPart h
    obtain ⟨s, hs⟩ := exists_sign hsolved.finite_a
    rw [hs] at hsign
    cases s with
    | positive =>
      refine Or.inl ⟨zero_lt_iff.mpr ⟨hs, hzero⟩, zero_le_iff.mpr (Or.inl hsign), ?_⟩
      rw [Fixed.shownSign, if_neg]
      rw [lt_zero_iff, hsign]
      exact fun h => nomatch h.1
    | negative => exact Or.inr ⟨lt_zero_iff.mpr ⟨hs, hzero⟩, le_zero_iff.mpr (Or.inl hsign)⟩

/-- The equation `x² + x + 1 = 0`. -/
theorem display_complex_ones :
    ∃ re im, solveTexts "1" "1" "1" = .ok (.complex re im) ∧ 0.0 ≤ im ∧
      (Roots.complex re im).display = "x₁ = -0.5000 + 0.8660i, x₂ = -0.5000 - 0.8660i" := by
  have hsolve : solveTexts "1" "1" "1" = .ok (.complex (-0.5) ((3.0 : Float).sqrt / 2.0)) := by decide +kernel
  obtain ⟨-, -, -, -, -, hpos | hneg⟩ := display_complex hsolve
  · exact ⟨_, _, hsolve, hpos.2.1, by decide +kernel⟩
  · exact absurd hneg.1 (by decide +kernel)

/-- The equation `-x² - 1 = 0`. -/
theorem display_complex_negated :
    (Roots.complex 0.0 (-1.0)).display = "x₁ = 0.0000 + -1.0000i, x₂ = 0.0000 - -1.0000i" ∧
      ¬ ∀ (a b c : String) (re im : Float), solveTexts a b c = .ok (.complex re im) →
        0.0 ≤ im ∧ ∃ s real imaginary, real.IsFixed 4 |exactValue re| ∧ imaginary.IsFixed 4 |exactValue im| ∧
          (Roots.complex re im).display = conjugatePair s real .positive imaginary := by
  refine ⟨by decide +kernel, fun h => ?_⟩
  have hsolve : solveTexts "-1" "0" "-1" = .ok (.complex 0.0 (-1.0)) := by decide +kernel
  exact absurd (h _ _ _ _ _ hsolve).1 (by decide +kernel)

end TalkingCalculator
