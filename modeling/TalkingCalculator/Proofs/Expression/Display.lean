import TalkingCalculator.Proofs.Decimal.Layout
import TalkingCalculator.Proofs.Expression.Composition

/-!
# Results evaluated again

A displayed result is a literal, perhaps with a minus before it, and evaluates to what was displayed. Only the
sign of a negative zero is lost.
-/
namespace TalkingCalculator

open Float.Model (Format UnpackedFloat)
open Float.Model.UnpackedFloat
open Grammar

theorem Literal.lexed (l : Literal) : Lexed [] l.chars [.number (Binary.nearest .positive l.value)] := by
  have hdone : Lexed [] [] [] := .done
  have h := Lexed.number l (Binary.isCorrectlyRounded_nearest l.value_nonneg) runEnds_nil hdone
  rwa [List.append_nil] at h

/-- Adding zero only takes the sign from a negative zero. -/
theorem add_zero_eq {v : Float} (hv : v.isFinite = true) : v + 0.0 = if v = -0.0 then 0.0 else v := by
  rcases Binary.eq_ofUnpacked_of_isFinite hv with ⟨s, rfl⟩ | ⟨s, m, e, h, hc, rfl⟩
  · cases s <;> decide
  · rw [Binary.ofUnpacked_finite_add_zero hc, if_neg]
    intro heq
    have hunpack := Binary.unpack_ofUnpacked_finite (s := s) (h := h) hc
    rw [heq] at hunpack
    cases hunpack

theorem isFinite_add_zero (x : Float) : (x + 0.0).isFinite = x.isFinite := by
  cases hx : x.isFinite with
  | true =>
    rw [add_zero_eq hx]
    split
    · rfl
    · exact hx
  | false =>
    change x.toModel.unpack.isFinite = false at hx
    change (Binary.ofUnpacked (UnpackedFloat.add Format.binary64 x.toModel.unpack (.zero .positive))).isFinite = false
    generalize x.toModel.unpack = u at hx ⊢
    cases u with
    | notANumber => rfl
    | infinity s => cases s <;> rfl
    | zero | finite => cases hx

/-- The text of a finite double is the shortest decimal that reads back as it. -/
theorem displayNumber_cases {v : Float} (hv : v.isFinite = true) :
    ∃ d : Decimal, (displayNumber v).toList = d.literal.chars ∧ Binary.nearest .positive d.literal.value = v + 0.0 ∨
      (displayNumber v).toList = '-' :: d.literal.chars ∧ -Binary.nearest .positive d.literal.value = v + 0.0 := by
  rcases Binary.eq_ofUnpacked_of_isFinite hv with ⟨s, rfl⟩ | ⟨s, m, e, h, hc, rfl⟩
  · refine ⟨⟨0, 0⟩, Or.inl ⟨?_, ?_⟩⟩
    · rw [displayNumber_ofUnpacked_zero, Decimal.chars_literal]
      decide +kernel
    · rw [Decimal.value_literal, Decimal.value_zero, Binary.nearest_zero, Binary.ofUnpacked_zero_add_zero]
      rfl
  · refine ⟨.ofBinary m e, ?_⟩
    rw [displayNumber_ofUnpacked_finite hc, Decimal.value_literal, Decimal.nearest_value_ofBinary hc,
      Binary.ofUnpacked_finite_add_zero hc, Binary.neg_ofUnpacked_finite hc]
    cases s with
    | positive => exact Or.inl ⟨rfl, rfl⟩
    | negative => exact Or.inr ⟨rfl, rfl⟩

/-- A displayed result is an operand, its minus included. -/
theorem exists_operand_displayNumber {v : Float} (hv : v.isFinite = true) :
    ∃ o : Operand true, Lexed [] (displayNumber v).toList o.tokens ∧ o.value = .ok (v + 0.0) ∧ o.depth = 0 := by
  obtain ⟨d, ⟨htext, hvalue⟩ | ⟨htext, hvalue⟩⟩ := displayNumber_cases hv
  · refine ⟨.plain (.number (Binary.nearest .positive d.literal.value)), ?_, congrArg Except.ok hvalue, rfl⟩
    rw [htext]
    exact d.literal.lexed
  · refine ⟨.negated (.number (Binary.nearest .positive d.literal.value)), ?_, congrArg Except.ok hvalue, rfl⟩
    rw [htext]
    exact .operator rfl d.literal.lexed

theorem evaluate_displayNumber_add_zero {v : Float} (hv : v.isFinite = true) :
    evaluate (displayNumber v) = .ok (v + 0.0) := by
  obtain ⟨o, htext, hvalue, hdepth⟩ := exists_operand_displayNumber hv
  rw [evaluate_of_lexed o.alone, Operand.value_alone, hvalue]
  · exact if_pos ((isFinite_add_zero v).trans hv)
  · rwa [Operand.tokens_alone]
  · rw [Operand.depth_alone, hdepth]
    exact Nat.zero_le _

/-- A displayed result evaluates to itself. Its text is a literal with digits before the point and, if there is
a point, after it, and has a minus before it or not. -/
theorem evaluate_displayNumber (v : Float) (hv : v.isFinite = true) :
    evaluate (displayNumber v) = .ok (if v = -0.0 then 0.0 else v) ∧
      ∃ (sign : List Char) (l : Literal), (sign = [] ∨ sign = ['-']) ∧ l.whole ≠ [] ∧ l.fraction ≠ some [] ∧
        (displayNumber v).toList = sign ++ l.chars := by
  refine ⟨by rw [evaluate_displayNumber_add_zero hv, add_zero_eq hv], ?_⟩
  obtain ⟨d, ⟨htext, -⟩ | ⟨htext, -⟩⟩ := displayNumber_cases hv
  · exact ⟨[], d.literal, Or.inl rfl, d.split_whole_ne_nil, d.fraction_literal_ne, htext⟩
  · exact ⟨['-'], d.literal, Or.inr rfl, d.split_whole_ne_nil, d.fraction_literal_ne, htext⟩

theorem evaluate_displayNumber_neg_tenth :
    (-0.1 : Float).isFinite = true ∧ evaluate (displayNumber (-0.1)) = .ok (-0.1) := by
  have hfinite : (-0.1 : Float).isFinite = true := by decide
  have h := (evaluate_displayNumber (-0.1) hfinite).1
  rw [if_neg (by decide)] at h
  exact ⟨hfinite, h⟩

end TalkingCalculator
