import TalkingCalculator.Proofs.Screen.Painting
import TalkingCalculator.Proofs.Session.Refinement

/-!
# Sessions on an ASCII screen

Whatever keys are pressed in a session, and whatever else happens between them, its calculator has drawable texts
and its message is drawable. Every frame is therefore measured and drawn in ASCII.
-/
namespace TalkingCalculator

namespace Session

structure Legible (s : Session) : Prop where
  calculator : s.calculator.AllDrawable
  message : Drawable s.feedback.message

variable {s : Session}

theorem legible_start (settings : Settings) (offer : Engine.Offer) : (start settings offer).Legible := by
  have hsilent : Drawable Feedback.silent.message := by decide
  exact ⟨Calculator.allDrawable_fresh, hsilent⟩

theorem drawable_showDigit (p : Playback) (s : Session) {label : String} (h : Drawable label) :
    Drawable (s.showDigit p label).feedback.message := by
  have hok : Drawable "OK " := by decide
  exact hok.append h

theorem drawable_showOutcome (p : Playback) (s : Session) {o : Outcome} (h : Drawable o.text) :
    Drawable (s.showOutcome p o).feedback.message := by
  have hequals : Drawable "= " := by decide
  unfold showOutcome
  split
  · exact hequals.append h
  · exact h

theorem drawable_showMode (p : Playback) (s : Session) : Drawable (s.showMode p).feedback.message := by
  have hmodes : Drawable ("MODO " ++ "EXPRESION") ∧ Drawable ("MODO " ++ "ECUACION") := by decide
  unfold showMode modeTitle
  cases s.calculator.mode with
  | expression => exact hmodes.1
  | equation => exact hmodes.2

theorem drawable_showFocus (s : Session) : Drawable s.showFocus.feedback.message := by
  have hslots : ∀ slot ∈ Slot.all, Drawable ("COEFICIENTE " ++ slot.letter) := by decide
  refine hslots s.calculator.active ?_
  cases s.calculator.active <;> decide

/-- What is shown for a key is drawable if the outcome is. -/
theorem drawable_acknowledge (p : Playback) {o : Option Outcome} (hs : Drawable s.feedback.message)
    (ho : ∀ outcome ∈ o, Drawable outcome.text) (key : Key) :
    Drawable (s.acknowledge p o key.event).1.feedback.message := by
  cases key with
  | digit d => exact drawable_showDigit p s (drawable_piece (.digit d) rfl)
  | point => exact drawable_showDigit p s (drawable_piece .point rfl)
  | operator op => exact drawable_piece (.operator op) rfl
  | function f => exact drawable_piece (.function f) rfl
  | openParen => exact drawable_piece .openParen rfl
  | closeParen => exact drawable_piece .closeParen rfl
  | clear =>
    have hclear : Drawable "TODO BORRADO" := by decide
    exact hclear
  | delete =>
    have hdelete : Drawable "<- BORRADO" := by decide
    exact hdelete
  | toggleMode => exact drawable_showMode p s
  | cycleFocus => exact drawable_showFocus s
  | focus slot => exact drawable_showFocus s
  | commit =>
    cases o with
    | none => exact hs
    | some outcome => exact drawable_showOutcome p s (ho outcome rfl)

theorem Legible.process (hs : s.Legible) (p : Playback) (key : Key) : (s.process p key.event).1.Legible := by
  refine ⟨?_, ?_⟩
  · rw [(s.process_event p key).1]
    exact hs.calculator.press key
  · have hmessage : Drawable { s with calculator := s.calculator.press key }.feedback.message := hs.message
    rw [process_key]
    refine drawable_acknowledge p hmessage (fun outcome ho => ?_) key
    split at ho
    · rw [← Option.mem_some_iff.mp ho]
      exact s.calculator.drawable_outcome
    · cases ho

theorem Legible.toggleVoice (hs : s.Legible) (p : Playback) : (s.toggleVoice p).Legible := by
  refine ⟨?_, ?_⟩
  · rw [calculator_toggleVoice]
    exact hs.calculator
  · have hvoice : Drawable "VOZ ACTIVADA" ∧ Drawable "VOZ DESACTIVADA" := by decide
    unfold Session.toggleVoice
    cases s.settings.voiceEnabled with
    | true => exact hvoice.2
    | false => exact hvoice.1

theorem Legible.press (hs : s.Legible) (p : Playback) (code : Int) : (s.press p code).Legible := by
  rcases s.press_cases p code with ⟨key, -, hpress⟩ | ⟨-, ⟨-, hpress⟩ | hpress⟩
  · rw [hpress]
    exact hs.process p key
  · rw [hpress]
    exact hs.toggleVoice p
  · rw [hpress]
    exact hs

theorem Legible.draw (hs : s.Legible) (canvas : Canvas) (now : Float) : (s.draw canvas now).Legible := by
  refine ⟨?_, ?_⟩
  · rw [calculator_draw]
    exact hs.calculator
  · have htick : s.feedback.tick.message = s.feedback.message := by
      unfold Feedback.tick
      split <;> rfl
    unfold Session.draw render
    cases Screen.render s.settings s.size now s.feedback s.calculator.view canvas with
    | error e => exact hs.message
    | ok frame =>
      change Drawable s.feedback.tick.message
      rw [htick]
      exact hs.message

theorem Legible.step (hs : s.Legible) (step : Step) : (s.step step).Legible := by
  cases step with
  | key p code => exact hs.press p code
  | draw canvas now => exact hs.draw canvas now
  | speak | turn | runWorkers | configure => exact ⟨hs.calculator, hs.message⟩

theorem Legible.run (hs : s.Legible) (steps : List Step) : (s.run steps).Legible := by
  induction steps generalizing s with
  | nil => exact hs
  | cons step steps ih => exact ih (hs.step step)

open Painting in
/-- After whatever keys, frames and other steps of a session, only ASCII is measured and drawn for the next frame,
in any window, with any settings and whatever the canvas answers. What is painted is the frame of the session,
and nothing but a fault of the frame keeps it from being painted. -/
theorem canvas_isAscii (settings : Settings) (offer : Engine.Offer) (steps : List Step) (canvas : Canvas)
    (now : Float) :
    let s := (start settings offer).run steps
    let painting := frame s.settings s.size now s.feedback s.calculator.view canvas
    (∀ call ∈ made painting [], ∀ text ∈ call.text?, IsAscii text) ∧
    match s.render now canvas with
    | .ok (image, _) => ∃ calls, painting.run [] = .ok () calls ∧
        calls.filterMap CanvasCall.drawing? = image.drawings
    | .error e => ∃ calls, painting.run [] = .error e calls := by
  intro s painting
  have hs : s.Legible := (legible_start settings offer).run steps
  refine ⟨addsAscii_frame hs.calculator hs.message canvas [] (fun call hcall => nomatch hcall), ?_⟩
  have hframe := frame_render s.settings s.size now s.feedback s.calculator.view canvas
  unfold render
  cases himage : Screen.render s.settings s.size now s.feedback s.calculator.view canvas with
  | error e =>
    rw [himage] at hframe
    exact hframe []
  | ok image =>
    rw [himage] at hframe
    exact hframe []

end Session

end TalkingCalculator
