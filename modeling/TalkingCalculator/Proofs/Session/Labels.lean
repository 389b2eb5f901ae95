import TalkingCalculator.Proofs.Calculator.Typing
import TalkingCalculator.Proofs.Session.Announcements

/-!
# Labels

The label of a key is shown and handed to the announcer whenever the key is pressed. The calculator has typed it by
then, and nothing else has changed. But a parenthesis that is pressed in equation mode is shown and announced like
any other, though it is not typed there.
-/
namespace TalkingCalculator

namespace Calculator

/-- From one calculator to the next the piece was typed: it stands after the text of the buffer, or in the place of the
placeholder on a display, and all else is as it was. -/
structure Typed (c d : Calculator) (piece : String) : Prop where
  buffer : d.buffer = c.buffer ++ piece ∨ c.mode = .expression ∧ c.buffer = placeholder ∧ d.buffer = piece
  others : d = c.setBuffer d.buffer

variable {c d : Calculator} {key : Key} {piece : String}

theorem Typed.suffix (h : Typed c d piece) : piece.toList <:+ d.buffer.toList := by
  rcases h.buffer with happend | ⟨-, -, hreplace⟩
  · rw [happend, String.toList_append]
    exact List.suffix_append _ _
  · rw [hreplace]

/-- A key that types something types its label, unless it is a parenthesis in equation mode. -/
theorem typed_press (hpiece : key.piece? = some piece) (hkey : ¬ (c.mode = .equation ∧ key.isParen = true)) :
    Typed c (c.press key) piece := by
  rw [press_of_piece hpiece]
  refine ⟨?_, by rw [buffer_setBuffer]⟩
  rw [buffer_setBuffer]
  cases hmode : c.mode with
  | expression =>
    rw [typing_expression hmode, buffer_expression hmode]
    split
    · rename_i h
      exact Or.inr ⟨rfl, h.2, rfl⟩
    · exact Or.inl rfl
  | equation =>
    rw [typing_equation hmode, if_neg fun hparen => hkey ⟨hmode, hparen⟩]
    exact Or.inl rfl

theorem press_paren_equation (hmode : c.mode = .equation) (hkey : key.isParen = true) : c.press key = c := by
  cases key with
  | openParen | closeParen => exact if_neg (by simp [hmode])
  | _ => cases hkey

theorem not_typed_self (hpiece : key.piece? = some piece) (hmode : c.mode = .equation) : ¬ Typed c c piece := by
  intro h
  rcases h.buffer with happend | ⟨hexpression, -⟩
  · exact Key.piece_ne_empty hpiece (String.append_eq_left_iff.mp happend.symm)
  · cases hmode.symm.trans hexpression

end Calculator

namespace Session

variable (p : Playback) (s : Session) {code : Int} {key : Key} {piece : String}

theorem message_process (hpiece : key.piece? = some piece) :
    (s.process p key.event).1.feedback.message = "OK " ++ piece ∨
      (s.process p key.event).1.feedback.message = piece := by
  rw [process_key]
  cases key with
  | digit | point =>
    cases hpiece
    exact Or.inl rfl
  | operator | function | openParen | closeParen =>
    cases hpiece
    exact Or.inr rfl
  | clear | delete | toggleMode | cycleFocus | focus | commit => cases hpiece

theorem announcer_process_piece (hpiece : key.piece? = some piece) :
    (s.process p key.event).1.announcer = s.announcer.speakKey p s.settings piece := by
  rw [announcer_process, Reaction.said_of_piece hpiece]
  unfold Announcer.speakKey
  cases s.settings.speakKeys <;> rfl

/-- The label of a key is shown and handed to the announcer as a key. It was typed then, and ends the buffer, but for a
parenthesis in equation mode, which the calculator leaves aside. -/
theorem typed_of_label (hkey : KeyCode.bound? code = some key) (hpiece : key.piece? = some piece) :
    let t := s.press p code
    (t.feedback.message = "OK " ++ piece ∨ t.feedback.message = piece) ∧
      t.announcer = s.announcer.speakKey p s.settings piece ∧
      (¬ (s.calculator.mode = .equation ∧ key.isParen = true) →
        s.calculator.Typed t.calculator piece ∧ piece.toList <:+ t.calculator.buffer.toList) ∧
      (s.calculator.mode = .equation ∧ key.isParen = true →
        t.calculator = s.calculator ∧ ¬ s.calculator.Typed t.calculator piece) := by
  have hcalculator : (s.press p code).calculator = s.calculator.press key := by
    rw [calculator_press, hkey]
    rfl
  have hpress : s.press p code = (s.process p key.event).1 := by
    rcases s.press_cases p code with ⟨key', hkey', hpress⟩ | ⟨hnone, -⟩
    · cases hkey.symm.trans hkey'
      exact hpress
    · cases hkey.symm.trans hnone
  intro t
  refine ⟨?_, ?_, fun htyped => ?_, fun ⟨hmode, hparen⟩ => ?_⟩
  · dsimp only [t]
    rw [hpress]
    exact s.message_process p hpiece
  · dsimp only [t]
    rw [hpress]
    exact s.announcer_process_piece p hpiece
  · have h : s.calculator.Typed t.calculator piece := hcalculator ▸ Calculator.typed_press hpiece htyped
    exact ⟨h, h.suffix⟩
  · have hsame : t.calculator = s.calculator := hcalculator.trans (Calculator.press_paren_equation hmode hparen)
    rw [hsame]
    exact ⟨rfl, Calculator.not_typed_self hpiece hmode⟩

theorem typed_of_label_openParen :
    KeyCode.bound? KeyCode.openParen = some .openParen ∧ Key.openParen.piece? = some "(" ∧
      let s := start .standard (.ok [])
      let t := s.press ⟨false, []⟩ KeyCode.openParen
      t.feedback.message = "(" ∧ s.calculator.Typed t.calculator "(" ∧ t.calculator.display = "(" := by
  have hkey : KeyCode.bound? KeyCode.openParen = some .openParen := by decide
  obtain ⟨-, -, htyped, -⟩ := typed_of_label ⟨false, []⟩ (start .standard (.ok [])) hkey rfl
  exact ⟨hkey, rfl, rfl, (htyped (by decide)).1, rfl⟩

/-- In equation mode the closing parenthesis is shown, and announced when keys are, but it is not typed. -/
theorem not_typed_closeParen :
    ¬ ∀ (settings : Settings) (offer : Engine.Offer) (steps : List Step) (p : Playback) (code : Int) (key : Key)
        (piece : String), KeyCode.bound? code = some key → key.piece? = some piece →
      let s := (start settings offer).run steps
      let t := s.press p code
      (t.feedback.message = "OK " ++ piece ∨ t.feedback.message = piece ∨
        s.settings.speakKeys = true ∧ t.announcer = s.announcer.speakKey p s.settings piece) →
      s.calculator.Typed t.calculator piece := by
  intro h
  have hsession : ((start .standard (.ok [])).run [.key ⟨false, []⟩ 'm'.toNat]).calculator.mode = .equation := rfl
  have hshown : (((start .standard (.ok [])).run [.key ⟨false, []⟩ 'm'.toNat]).press ⟨false, []⟩
      ')'.toNat).feedback.message = ")" := rfl
  have htyped := h .standard (.ok []) [.key ⟨false, []⟩ 'm'.toNat] ⟨false, []⟩ ')'.toNat .closeParen ")" (by decide) rfl
    (Or.inr (Or.inl hshown))
  exact Calculator.not_typed_self (rfl : Key.closeParen.piece? = some ")") hsession htyped

end Session

end TalkingCalculator
