import TalkingCalculator.Proofs.Calculator.Commit
import TalkingCalculator.Proofs.Calculator.Faults

/-!
# Outcomes

A commit always shows a text. It fails exactly when the expression has an error or the equation a number that is
not finite, and no result reads like the text of a failure.
-/
namespace TalkingCalculator

/-- A text that begins, and not as the texts of failures do. -/
def BeginsApart (text : String) : Prop :=
  ∃ c ∈ text.toList.head?, c ≠ 'E'

namespace BeginsApart

variable {text : String}

theorem ne_empty (h : BeginsApart text) : text ≠ "" := by
  rintro rfl
  obtain ⟨c, hc, -⟩ := h
  cases hc

theorem ne_of_head {failure : String} (h : BeginsApart text) (hfailure : failure.toList.head? = some 'E') :
    text ≠ failure := by
  rintro rfl
  obtain ⟨c, hc, hne⟩ := h
  rw [hfailure] at hc
  cases hc
  exact hne rfl

theorem append (h : BeginsApart text) (rest : String) : BeginsApart (text ++ rest) := by
  obtain ⟨c, hc, hne⟩ := h
  refine ⟨c, ?_, hne⟩
  rw [String.toList_append, List.head?_append, hc, Option.some_or]
  rfl

end BeginsApart

theorem beginsApart_displayNumber {v : Float} (hv : v.isFinite = true) : BeginsApart (displayNumber v) := by
  obtain ⟨d, ⟨htext, -⟩ | ⟨htext, -⟩⟩ := displayNumber_cases hv
  · unfold BeginsApart
    rw [htext]
    refine ⟨d.literal.chars.head d.literal.chars_ne_nil, List.head?_eq_some_head _, ?_⟩
    intro hE
    have hrun := d.literal.runChar_of_mem (List.head_mem d.literal.chars_ne_nil)
    rw [hE] at hrun
    exact absurd hrun (by decide)
  · unfold BeginsApart
    rw [htext]
    exact ⟨'-', rfl, by decide⟩

theorem beginsApart_display (r : Roots) : BeginsApart r.display := by
  have hx : BeginsApart "x = " := ⟨'x', rfl, by decide⟩
  have hx₁ : BeginsApart "x₁ = " := ⟨'x', rfl, by decide⟩
  cases r with
  | degenerate => exact ⟨'N', rfl, by decide⟩
  | twoReal x₁ x₂ => exact ((hx₁.append _).append _).append _
  | oneReal x => exact hx.append _
  | complex re im => exact ((((((((hx₁.append _).append _).append _).append _).append _).append _).append _).append _)

theorem solve_eq_error_iff (a b c : Float) :
    (∃ e, solve a b c = .error e) ↔ ¬ (a.isFinite = true ∧ b.isFinite = true ∧ c.isFinite = true) ∨
      (a == 0.0) = false ∧ (¬ (discriminant a b c).isFinite = true ∨
        ∃ x ∈ (Roots.ofDiscriminant a b (discriminant a b c)).values, ¬ x.isFinite = true) := by
  have hguard : (!(a.isFinite && b.isFinite && c.isFinite)) = true ↔
      ¬ (a.isFinite = true ∧ b.isFinite = true ∧ c.isFinite = true) := by
    rw [Bool.not_eq_true', Bool.eq_false_iff, Ne, Bool.and_eq_true, Bool.and_eq_true, and_assoc]
  have hall : (Roots.ofDiscriminant a b (discriminant a b c)).values.all Float.isFinite = true ↔
      ¬ ∃ x ∈ (Roots.ofDiscriminant a b (discriminant a b c)).values, ¬ x.isFinite = true := by
    rw [List.all_eq_true]
    push Not
    rfl
  unfold solve
  dsimp only
  by_cases hcoefficients : a.isFinite = true ∧ b.isFinite = true ∧ c.isFinite = true
  swap
  · rw [if_pos (hguard.mpr hcoefficients)]
    exact iff_of_true ⟨_, rfl⟩ (Or.inl hcoefficients)
  rw [if_neg (mt hguard.mp (not_not.mpr hcoefficients)), or_iff_right (not_not.mpr hcoefficients)]
  cases hzero : a == 0.0 with
  | true => exact iff_of_false nofun nofun
  | false =>
    rw [if_neg Bool.false_ne_true, eq_self, true_and]
    cases hd : (discriminant a b c).isFinite with
    | false => exact iff_of_true ⟨_, rfl⟩ (Or.inl Bool.false_ne_true)
    | true =>
      rw [if_neg (by decide), or_iff_right (by decide)]
      by_cases hroots : (Roots.ofDiscriminant a b (discriminant a b c)).values.all Float.isFinite = true
      · rw [if_pos hroots]
        exact iff_of_false nofun (hall.mp hroots)
      · rw [if_neg hroots]
        exact iff_of_true ⟨_, rfl⟩ (not_not.mp (mt hall.mpr hroots))

def Mode.failure : Mode → String
  | .expression => expressionFailure
  | .equation => equationFailure

namespace Calculator

def Fails (c : Calculator) : Prop :=
  match c.mode with
  | .expression => ∃ e, evaluate c.display = .error e
  | .equation => ∃ e, solveTexts c.coefficients.a c.coefficients.b c.coefficients.c = .error e

theorem outcome_of_fails {c : Calculator} (h : c.Fails) : c.outcome = ⟨false, c.mode.failure⟩ := by
  unfold Fails at h
  unfold outcome
  cases hmode : c.mode with
  | expression =>
    rw [hmode] at h
    obtain ⟨e, he⟩ := h
    simp only [he]
    rfl
  | equation =>
    rw [hmode] at h
    obtain ⟨e, he⟩ := h
    simp only [he]
    rfl

theorem outcome_of_not_fails {c : Calculator} (h : ¬ c.Fails) :
    c.outcome.success = true ∧ BeginsApart c.outcome.text := by
  unfold Fails at h
  unfold outcome
  cases hmode : c.mode with
  | expression =>
    rw [hmode] at h
    cases hvalue : evaluate c.display with
    | error e => exact absurd ⟨e, hvalue⟩ h
    | ok v => exact ⟨rfl, beginsApart_displayNumber (isFinite_of_evaluate hvalue)⟩
  | equation =>
    rw [hmode] at h
    cases hroots : solveTexts c.coefficients.a c.coefficients.b c.coefficients.c with
    | error e => exact absurd ⟨e, hroots⟩ h
    | ok r => exact ⟨rfl, beginsApart_display r⟩

theorem success_eq_false_iff (c : Calculator) : c.outcome.success = false ↔ c.Fails := by
  by_cases h : c.Fails
  · rw [outcome_of_fails h]
    exact iff_of_true rfl h
  · rw [(outcome_of_not_fails h).1]
    exact iff_of_false nofun h

/-- Every commit returns. It shows a text, which is never empty, and changes nothing else. It fails when the
expression has an error, or when a coefficient, the discriminant or a root is not finite; then it shows the text
of this failure, and otherwise neither of the two. No operation is used where it has no result. -/
theorem handle_commit_returns :
    (∀ c : Calculator, ∃ o, c.handle .commit = .ok ({ c with display := o.text }, some o) ∧ o.text ≠ "" ∧
      (c.mode = .expression → (o.success = false ↔ ∃ e, evaluate c.display = .error e) ∧
        (o.success = false → o.text = "Error")) ∧
      (c.mode = .equation →
        let a := readCoefficient c.coefficients.a
        let b := readCoefficient c.coefficients.b
        let d := discriminant a b (readCoefficient c.coefficients.c)
        (o.success = false ↔
          ¬ (a.isFinite = true ∧ b.isFinite = true ∧ (readCoefficient c.coefficients.c).isFinite = true) ∨
            (a == 0.0) = false ∧
              (¬ d.isFinite = true ∨ ∃ x ∈ (Roots.ofDiscriminant a b d).values, ¬ x.isFinite = true)) ∧
        (o.success = false → o.text = "Error solving equation")) ∧
      (o.success = true → o.text ≠ "Error" ∧ o.text ≠ "Error solving equation")) ∧
    (∀ position cs, Faulting.number position cs = .ok (Lexeme.number position cs)) ∧
    (∀ cs, Faulting.leading cs = .ok (Coefficient.leading? cs)) ∧
    (∀ (tokens : List Token) position, Faulting.peek tokens position = .ok (tokens.drop position).head?) ∧
    (∀ x y, Faulting.quotient x y = .ok (quotient x y)) ∧
    (∀ f x, Faulting.apply f x = f.apply x) ∧
    ∀ a b c, Faulting.solve a b c = .ok (solve a b c) := by
  refine ⟨?_, Faulting.number_eq, Faulting.leading_eq, Faulting.peek_eq,
    Faulting.quotient_eq, Faulting.apply_eq, Faulting.solve_eq⟩
  intro c
  have hsuccess := c.success_eq_false_iff
  have hfailure (h : c.outcome.success = false) : c.outcome.text = c.mode.failure :=
    congrArg Outcome.text (outcome_of_fails (hsuccess.mp h))
  refine ⟨c.outcome, c.handle_commit, ?_, ?_, ?_, ?_⟩
  · by_cases h : c.Fails
    · rw [outcome_of_fails h]
      cases c.mode <;> decide
    · exact (outcome_of_not_fails h).2.ne_empty
  · intro hmode
    unfold Fails at hsuccess
    rw [hmode] at hsuccess hfailure
    exact ⟨hsuccess, hfailure⟩
  · intro hmode
    unfold Fails at hsuccess
    rw [hmode] at hsuccess hfailure
    exact ⟨hsuccess.trans (solve_eq_error_iff _ _ _), hfailure⟩
  · intro h
    have hbegins : BeginsApart c.outcome.text := by
      refine (outcome_of_not_fails fun hfails => ?_).2
      rw [hsuccess.mpr hfails] at h
      cases h
    exact ⟨hbegins.ne_of_head rfl, hbegins.ne_of_head rfl⟩

end Calculator

end TalkingCalculator
