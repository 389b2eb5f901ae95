import TalkingCalculator.Calculator.Event
import TalkingCalculator.Proofs.Expression.Display

/-!
# Commits

A commit shows a text that leads to the same text again: a result evaluates to itself, the text of a failure
fails, and the roots of an equation do not depend on the display.
-/
namespace TalkingCalculator

theorem isFinite_of_evaluateTokens {ts : List Token} {v : Float} (h : evaluateTokens ts = .ok v) :
    v.isFinite = true := by
  obtain ⟨w, -, hw⟩ := bind_eq_ok.mp h
  split at hw
  · cases hw
    assumption
  · cases hw

theorem isFinite_of_evaluate {text : String} {v : Float} (h : evaluate text = .ok v) : v.isFinite = true := by
  unfold evaluate at h
  cases htokens : tokenize text with
  | error e => simp [htokens] at h
  | ok ts =>
    rw [htokens] at h
    exact isFinite_of_evaluateTokens h

theorem displayNumber_add_zero {v : Float} (hv : v.isFinite = true) : displayNumber (v + 0.0) = displayNumber v := by
  have hsum : v + 0.0 + 0.0 = v + 0.0 := by
    rw [add_zero_eq hv]
    by_cases hzero : v = -0.0
    · rw [if_pos hzero]
      rfl
    · rw [if_neg hzero, add_zero_eq hv, if_neg hzero]
  unfold displayNumber
  rw [hsum]

theorem evaluate_expressionFailure : evaluate expressionFailure = .error (.lexical (.unknown 'E' 0)) := by
  have hoffends : Offends 0 expressionFailure.toList (.unknown 'E' 0) := by
    refine .unknown (by decide) rfl (by decide) (by decide) ?_
    intro f
    cases f <;> decide
  have htokens : tokenize expressionFailure = .error (.unknown 'E' 0) :=
    (tokenize_eq_error_iff _ _).mpr ⟨_, [], .done, hoffends⟩
  unfold evaluate
  rw [htokens]

namespace Calculator

theorem handle_commit (c : Calculator) : c.handle .commit = .ok (c.commit, some c.outcome) := rfl

theorem mode_commit (c : Calculator) : c.commit.mode = c.mode := rfl

theorem display_commit (c : Calculator) : c.commit.display = c.outcome.text := rfl

theorem outcome_of_evaluate_ok {c : Calculator} (hmode : c.mode = .expression) {v : Float}
    (h : evaluate c.display = .ok v) : c.outcome = ⟨true, displayNumber v⟩ := by
  unfold outcome
  simp only [hmode, h]

theorem outcome_of_evaluate_error {c : Calculator} (hmode : c.mode = .expression) {e : EvaluationError}
    (h : evaluate c.display = .error e) : c.outcome = ⟨false, expressionFailure⟩ := by
  unfold outcome
  simp only [hmode, h]

theorem outcome_equation {c d : Calculator} (hc : c.mode = .equation) (hd : d.mode = .equation)
    (hcoefficients : c.coefficients = d.coefficients) : c.outcome = d.outcome := by
  unfold outcome
  simp only [hc, hd, hcoefficients]

/-- The text that a commit shows leads to the same outcome. -/
theorem outcome_commit (c : Calculator) : c.commit.outcome = c.outcome := by
  have hdisplay := c.display_commit
  cases hmode : c.mode with
  | expression =>
    cases heval : evaluate c.display with
    | ok v =>
      have hfinite := isFinite_of_evaluate heval
      rw [outcome_of_evaluate_ok hmode heval] at hdisplay ⊢
      have hagain : evaluate c.commit.display = .ok (v + 0.0) := by
        rw [hdisplay]
        exact evaluate_displayNumber_add_zero hfinite
      rw [outcome_of_evaluate_ok (c.mode_commit.trans hmode) hagain, displayNumber_add_zero hfinite]
    | error e =>
      rw [outcome_of_evaluate_error hmode heval] at hdisplay ⊢
      have hagain : evaluate c.commit.display = .error (.lexical (.unknown 'E' 0)) := by
        rw [hdisplay]
        exact evaluate_expressionFailure
      exact outcome_of_evaluate_error (c.mode_commit.trans hmode) hagain
  | equation => exact outcome_equation (c.mode_commit.trans hmode) hmode rfl

theorem commit_commit (c : Calculator) : c.commit.commit = c.commit := by
  unfold commit
  rw [show ({ c with display := c.outcome.text } : Calculator).outcome = c.outcome from c.outcome_commit]

/-- A second commit changes nothing and tells the same. -/
theorem handle_commit_idempotent (c : Calculator) :
    ∃ c' o, c.handle .commit = .ok (c', some o) ∧ c'.handle .commit = .ok (c', some o) := by
  refine ⟨c.commit, c.outcome, c.handle_commit, ?_⟩
  rw [handle_commit, commit_commit, outcome_commit]

end Calculator

end TalkingCalculator
