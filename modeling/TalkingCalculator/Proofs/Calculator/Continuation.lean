import TalkingCalculator.Proofs.Calculator.Commit
import TalkingCalculator.Proofs.Calculator.Keys
import TalkingCalculator.Proofs.Calculator.Parts
import TalkingCalculator.Proofs.Calculator.Typing
import TalkingCalculator.Proofs.Equation.Agreement
import TalkingCalculator.Proofs.Expression.Composition

/-!
# Going on with a result

A displayed result is the left operand of the operation that is typed after it. Its minus, if it has one, belongs to
the whole number, and the keys after the operator find a display that is longer than the placeholder, so that none
of them replaces it. The sign of a negative zero is not displayed, but a result would differ by it in nothing else
than the sign of a zero.
-/
namespace TalkingCalculator

open Float.Model (Format UnpackedFloat)
open Grammar

namespace Operator

def outcome (op : Operator) (v w : Float) : Outcome :=
  if op = .divide ∧ (w == 0.0) = true ∨ (op.value v w).isFinite = false then ⟨false, expressionFailure⟩
  else ⟨true, displayNumber (op.value v w)⟩

def unpackedValue : Operator → UnpackedFloat → UnpackedFloat → UnpackedFloat
  | add => UnpackedFloat.add Format.binary64
  | subtract => UnpackedFloat.sub Format.binary64
  | multiply => UnpackedFloat.mul Format.binary64
  | divide => UnpackedFloat.div Format.binary64

variable (op : Operator) {v w : Float}

theorem value_eq_ofUnpacked (v w : Float) :
    op.value v w = Binary.ofUnpacked (op.unpackedValue v.toModel.unpack w.toModel.unpack) := by
  cases op <;> rfl

/-- The sign of a zero can only be seen in the sign of another zero. -/
theorem unpackedValue_zero (u : UnpackedFloat) :
    op.unpackedValue (.zero .negative) u = op.unpackedValue (.zero .positive) u ∨
      ∃ s t, op.unpackedValue (.zero .negative) u = .zero s ∧ op.unpackedValue (.zero .positive) u = .zero t := by
  cases op with
  | add | subtract =>
    cases u with
    | zero s => cases s <;> exact Or.inr ⟨_, _, rfl, rfl⟩
    | notANumber | infinity | finite => exact Or.inl rfl
  | multiply =>
    cases u with
    | notANumber | infinity => exact Or.inl rfl
    | zero | finite => exact Or.inr ⟨_, _, rfl, rfl⟩
  | divide =>
    cases u with
    | notANumber | zero => exact Or.inl rfl
    | infinity | finite => exact Or.inr ⟨_, _, rfl, rfl⟩

theorem value_neg_zero_add_zero (w : Float) : op.value (-0.0) w + 0.0 = op.value 0.0 w + 0.0 := by
  have hneg : (-0.0 : Float).toModel.unpack = .zero .negative := rfl
  have hpos : (0.0 : Float).toModel.unpack = .zero .positive := rfl
  rw [value_eq_ofUnpacked, value_eq_ofUnpacked, hneg, hpos]
  rcases op.unpackedValue_zero w.toModel.unpack with heq | ⟨s, t, hs, ht⟩
  · rw [heq]
  · rw [hs, ht, Binary.ofUnpacked_zero_add_zero, Binary.ofUnpacked_zero_add_zero]

theorem value_add_zero_left (hv : v.isFinite = true) (w : Float) :
    op.value (v + 0.0) w + 0.0 = op.value v w + 0.0 := by
  rw [add_zero_eq hv]
  split
  · rename_i hzero
    rw [hzero, value_neg_zero_add_zero]
  · rfl

theorem outcome_add_zero_left (hv : v.isFinite = true) (w : Float) : op.outcome (v + 0.0) w = op.outcome v w := by
  have hsum := op.value_add_zero_left hv w
  have hfinite : (op.value (v + 0.0) w).isFinite = (op.value v w).isFinite := by
    rw [← isFinite_add_zero, hsum, isFinite_add_zero]
  unfold outcome displayNumber
  rw [hfinite, hsum]

/-- The outcome is that of a commit whose display has the result of the operation. -/
theorem outcome_eq {c : Calculator} (hmode : c.mode = .expression) (h : evaluate c.display = op.result v w) :
    c.outcome = op.outcome v w := by
  unfold result finiteResult at h
  unfold outcome
  by_cases hzero : op = .divide ∧ (w == 0.0) = true
  · rw [if_pos hzero] at h
    rw [if_pos (Or.inl hzero)]
    exact Calculator.outcome_of_evaluate_error hmode h
  · rw [if_neg hzero] at h
    by_cases hfinite : (op.value v w).isFinite = true
    · rw [if_pos hfinite] at h
      rw [if_neg (not_or.mpr ⟨hzero, Bool.not_eq_false _ ▸ hfinite⟩)]
      exact Calculator.outcome_of_evaluate_ok hmode h
    · rw [if_neg hfinite] at h
      rw [if_pos (Or.inr (Bool.eq_false_iff.mpr hfinite))]
      exact Calculator.outcome_of_evaluate_error hmode h

end Operator

theorem displayNumber_length_pos {v : Float} (hv : v.isFinite = true) : 0 < (displayNumber v).length := by
  rw [← String.length_toList]
  obtain ⟨d, ⟨htext, -⟩ | ⟨htext, -⟩⟩ := displayNumber_cases hv
  · rw [htext]
    exact List.length_pos_iff.mpr d.literal.chars_ne_nil
  · rw [htext]
    exact Nat.succ_pos _

/-- An operator and a literal after a displayed result are an operation on it. -/
theorem evaluate_displayNumber_operator {v w : Float} (hv : v.isFinite = true) (op : Operator) {t : String}
    (ht : tokenize t = .ok [.number w]) :
    evaluate (displayNumber v ++ op.glyph.toString ++ t) = op.result (v + 0.0) w := by
  obtain ⟨o, htext, hvalue, hdepth⟩ := exists_operand_displayNumber hv
  have ht' : Lexed [] t.toList (Factor.number w).tokens := (tokenize_eq_ok_iff t _).mp ht
  rw [evaluate_of_lexed (o.combine op (.number w)), Operand.result_combine hvalue rfl]
  · rw [Operand.tokens_combine]
    simpa [Char.toString] using
      (htext.before (runEnds_glyph op _)).trans (.operator (Operator.ofChar?_glyph op) ht')
  · rw [Operand.depth_combine, hdepth]
    exact Nat.zero_le _

def Key.Types (keys : List Key) (text : List Char) : Prop :=
  keys.map Key.piece? = text.map fun c => some c.toString

/-- There is a key for every character of a literal. -/
theorem Key.exists_types {text : List Char} (htext : ∀ c ∈ text, RunChar c) : ∃ keys, Types keys text := by
  induction text with
  | nil => exact ⟨[], rfl⟩
  | cons c cs ih =>
    obtain ⟨keys, hkeys⟩ := ih fun d hd => htext d (List.mem_cons_of_mem c hd)
    have hkey : ∃ key : Key, key.piece? = some c.toString := by
      rcases htext c List.mem_cons_self with hdigit | rfl
      · obtain ⟨d, hd⟩ := exists_digitText hdigit
        exact ⟨.digit d, congrArg some hd⟩
      · exact ⟨.point, rfl⟩
    obtain ⟨key, hkey⟩ := hkey
    exact ⟨key :: keys, congrArg₂ List.cons hkey hkeys⟩

/-- Such keys type all of the text. -/
theorem Key.Types.typed {keys : List Key} {text : List Char} (h : Types keys text) :
    Key.typed keys = String.ofList text ∧ ∀ key ∈ keys, key.piece?.isSome := by
  induction keys generalizing text with
  | nil =>
    obtain rfl : text = [] := List.map_eq_nil_iff.mp h.symm
    exact ⟨rfl, nofun⟩
  | cons key keys ih =>
    obtain ⟨d, cs, rfl, hkey, hrest⟩ := List.map_eq_cons_iff.mp h.symm
    obtain ⟨htyped, hpieces⟩ := ih hrest.symm
    refine ⟨?_, List.forall_mem_cons.mpr ⟨Option.isSome_of_eq_some hkey.symm, hpieces⟩⟩
    rw [Key.typed_cons hkey.symm, htyped, ← String.toList_inj]
    simp [Char.toString]

namespace Calculator

variable {c : Calculator}

/-- After an operator, whatever the display was, the keys of a literal are written after the text. -/
theorem press_operator_types (hmode : c.mode = .expression) (hpos : 0 < c.display.length) (op : Operator)
    {keys : List Key} {text : String} (hkeys : Key.Types keys text.toList) :
    (Key.operator op :: keys).foldl press c = { c with display := c.display ++ op.glyph.toString ++ text } := by
  let next : Calculator := { c with display := c.display ++ op.glyph.toString }
  have hpress : c.press (.operator op) = next := append_expression hmode _
  have hdisplay : c.display ≠ "" := by
    rintro h
    rw [h] at hpos
    exact absurd hpos (by decide)
  have hempty : next.display ≠ "" := by
    dsimp only [next]
    simp
  have hnext : next.display ≠ placeholder :=
    append_ne_placeholder hdisplay (Key.piece_ne_empty (rfl : (Key.operator op).piece? = some _))
  obtain ⟨htyped, hpieces⟩ := hkeys.typed
  rw [List.foldl_cons, hpress, foldl_press_of_ne (c := next) hmode hempty hnext hpieces, htyped, String.ofList_toList]

/-- A result is continued exactly: an operator, the keys of a literal and a commit after it tell the operation on the
double that is displayed, and its text is displayed then. -/
theorem handleAll_continuation {v w : Float} {t : String} (op : Operator) (hmode : c.mode = .expression)
    (hv : v.isFinite = true) (hdisplay : c.display = displayNumber v) (ht : tokenize t = .ok [.number w]) :
    (∃ keys, Key.Types keys t.toList) ∧ ∀ keys, Key.Types keys t.toList →
      ∃ c' c'', c.handleAll ((.operator op :: keys).map Key.event) = .ok c' ∧
        c'.handle .commit = .ok (c'', some (op.outcome v w)) ∧ c''.display = (op.outcome v w).text := by
  refine ⟨?_, fun keys hkeys => ?_⟩
  · obtain ⟨l, hchars, -⟩ := exists_literal_of_tokenize ht
    exact Key.exists_types fun d hd => l.runChar_of_mem (hchars ▸ hd)
  · have hpos : 0 < c.display.length := hdisplay ▸ displayNumber_length_pos hv
    -- The operation is evaluated on `v + 0.0`, which is what the text of `v` reads as.
    let next : Calculator := { c with display := c.display ++ op.glyph.toString ++ t }
    have heval : evaluate next.display = op.result (v + 0.0) w := by
      have htext : next.display = displayNumber v ++ op.glyph.toString ++ t := by rw [← hdisplay]
      rw [htext, evaluate_displayNumber_operator hv op ht]
    have houtcome : next.outcome = op.outcome v w := by
      rw [op.outcome_eq (c := next) hmode heval, op.outcome_add_zero_left hv]
    refine ⟨next, next.commit, ?_, ?_, ?_⟩
    · rw [handleAll_events, press_operator_types hmode hpos op hkeys]
    · rw [handle_commit, houtcome]
    · rw [display_commit, houtcome]

theorem handleAll_continuation_neg_half :
    (-0.5 : Float).isFinite = true ∧ displayNumber (-0.5) = "-0.5" ∧ tokenize "1.5" = .ok [.number 1.5] ∧
      Key.Types [.digit 1, .point, .digit 5] "1.5".toList ∧
      ∃ c' c'', { fresh with display := "-0.5" }.handleAll
          ([Key.operator .subtract, .digit 1, .point, .digit 5].map Key.event) = .ok c' ∧
        c'.handle .commit = .ok (c'', some ⟨true, "-2"⟩) ∧ c''.display = "-2" := by
  have hfinite : (-0.5 : Float).isFinite = true := by decide
  have hdisplay : displayNumber (-0.5) = "-0.5" := by decide +kernel
  have htokens : tokenize "1.5" = .ok [.number 1.5] := by decide +kernel
  have hkeys : Key.Types [.digit 1, .point, .digit 5] "1.5".toList := rfl
  have houtcome : Operator.subtract.outcome (-0.5) 1.5 = ⟨true, "-2"⟩ := by decide +kernel
  obtain ⟨c', c'', htyped, hcommit, hshown⟩ :=
    (handleAll_continuation (c := { fresh with display := "-0.5" }) .subtract rfl hfinite hdisplay.symm htokens).2
      _ hkeys
  rw [houtcome] at hcommit hshown
  exact ⟨hfinite, hdisplay, htokens, hkeys, c', c'', htyped, hcommit, hshown⟩

end Calculator

end TalkingCalculator
