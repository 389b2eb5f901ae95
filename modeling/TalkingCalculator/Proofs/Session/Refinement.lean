import Mathlib.Data.List.Basic
import TalkingCalculator.Proofs.Calculator.Keys
import TalkingCalculator.Session.Basic

/-!
# Sessions and their calculators

A session does to its calculator what the keys say and nothing else. Frames, voices and settings come and go
between the keys, may fail, and leave the calculator alone.
-/
namespace TalkingCalculator

namespace KeyCode

/-- The key that a code has on the calculator; three codes are kept for the session. -/
def bound? (code : Int) : Option Key :=
  if code = escape ∨ code = quit ∨ code = voice then none else key? code

end KeyCode

namespace Session

variable (p : Playback) (s : Session)

theorem calculator_showOutcome (o : Outcome) : (s.showOutcome p o).calculator = s.calculator := by
  unfold showOutcome
  split <;> rfl

/-- Whatever is shown and read, the calculator stays. -/
theorem calculator_acknowledge (o : Option Outcome) (event : Event) :
    (s.acknowledge p o event).1.calculator = s.calculator := by
  cases event with
  | digit value =>
    cases value with
    | whole n =>
      simp only [acknowledge]
      split <;> rfl
    | _ => rfl
  | operator choice => cases choice <;> rfl
  | function choice => cases choice <;> rfl
  | commit =>
    cases o with
    | none => rfl
    | some o => exact calculator_showOutcome p s o
  | _ => rfl

/-- The events of keys have labels. -/
theorem acknowledge_event (o : Option Outcome) (key : Key) : (s.acknowledge p o key.event).2 = none := by
  cases key <;> rfl

/-- The event of a key is handled and then shown and read. -/
theorem process_key (key : Key) :
    (s.process p key.event).1 = (acknowledge p { s with calculator := s.calculator.press key }
      (if key = .commit then some s.calculator.outcome else none) key.event).1 := by
  unfold process
  rw [s.calculator.handle_event key]
  dsimp only
  split <;> rename_i h <;> rw [h]

theorem process_event (key : Key) :
    (s.process p key.event).1.calculator = s.calculator.press key ∧ ∃ o, (s.process p key.event).2 = .ok o := by
  unfold process
  rw [s.calculator.handle_event key]
  generalize (if key = .commit then some s.calculator.outcome else none) = o
  have hcalculator := calculator_acknowledge p { s with calculator := s.calculator.press key } o key.event
  have hlabel := acknowledge_event p { s with calculator := s.calculator.press key } o key
  dsimp only
  generalize acknowledge p { s with calculator := s.calculator.press key } o key.event = r at hcalculator hlabel ⊢
  obtain ⟨t, label⟩ := r
  cases hlabel
  exact ⟨hcalculator, o, rfl⟩

theorem calculator_toggleVoice : (s.toggleVoice p).calculator = s.calculator := by
  unfold toggleVoice
  extract_lets
  split <;> rfl

def press (code : Int) : Session :=
  (s.press? p code).getD s

/-- A code is that of a key, turns the voice on or off, or does nothing. -/
theorem press_cases (code : Int) :
    (∃ key, KeyCode.bound? code = some key ∧ s.press p code = (s.process p key.event).1) ∨
      KeyCode.bound? code = none ∧
        (code = KeyCode.voice ∧ s.press p code = s.toggleVoice p ∨ s.press p code = s) := by
  unfold press press? KeyCode.bound?
  by_cases hquit : code = KeyCode.escape ∨ code = KeyCode.quit
  · rw [if_pos hquit, if_pos (hquit.imp_right Or.inl)]
    exact Or.inr ⟨rfl, Or.inr rfl⟩
  · by_cases hvoice : code = KeyCode.voice
    · rw [if_neg hquit, if_pos hvoice, if_pos (Or.inr (Or.inr hvoice))]
      exact Or.inr ⟨rfl, Or.inl ⟨hvoice, rfl⟩⟩
    · have hreserved : ¬ (code = KeyCode.escape ∨ code = KeyCode.quit ∨ code = KeyCode.voice) := by
        rw [← or_assoc]
        exact not_or.mpr ⟨hquit, hvoice⟩
      rw [if_neg hquit, if_neg hvoice, if_neg hreserved]
      cases KeyCode.key? code with
      | none => exact Or.inr ⟨rfl, Or.inr rfl⟩
      | some key => exact Or.inl ⟨key, rfl, rfl⟩

theorem calculator_press (code : Int) :
    (s.press p code).calculator = (KeyCode.bound? code).elim s.calculator s.calculator.press := by
  rcases s.press_cases p code with ⟨key, hkey, hpress⟩ | ⟨hkey, ⟨-, hpress⟩ | hpress⟩
  · rw [hkey, hpress]
    exact (s.process_event p key).1
  · rw [hkey, hpress]
    exact s.calculator_toggleVoice p
  · rw [hkey, hpress]
    rfl

def draw (canvas : Canvas) (now : Float) : Session :=
  match s.render now canvas with
  | .ok (_, next) => next
  | .error _ => s

theorem calculator_draw (canvas : Canvas) (now : Float) : (s.draw canvas now).calculator = s.calculator := by
  unfold draw render
  cases Screen.render s.settings s.size now s.feedback s.calculator.view canvas <;> rfl

inductive Step where
  | key (p : Playback) (code : Int)
  | draw (canvas : Canvas) (now : Float)
  | speak (p : Playback) (text : String)
  | turn (p : Playback)
  | runWorkers (p : Playback)
  | configure (settings : Settings)

def Step.code? : Step → Option Int
  | .key _ code => some code
  | .draw _ _ | .speak _ _ | .turn _ | .runWorkers _ | .configure _ => none

def step (s : Session) : Step → Session
  | .key p code => s.press p code
  | .draw canvas now => s.draw canvas now
  | .speak p text => s.speak p text
  | .turn p => { s with announcer := s.announcer.turn p }
  | .runWorkers p => { s with announcer := s.announcer.runWorkers p }
  | .configure settings => { s with settings }

def run (s : Session) (steps : List Step) : Session :=
  steps.foldl step s

def keys (steps : List Step) : List Key :=
  (steps.filterMap Step.code?).filterMap KeyCode.bound?

theorem keys_key (code : Int) : keys [.key p code] = (KeyCode.bound? code).toList := by
  change [code].filterMap KeyCode.bound? = _
  rw [List.filterMap_eq_flatMap_toList, List.flatMap_singleton]

theorem calculator_step (step : Step) :
    (s.step step).calculator = (keys [step]).foldl Calculator.press s.calculator := by
  cases step with
  | key p code =>
    rw [keys_key]
    refine (s.calculator_press p code).trans ?_
    cases KeyCode.bound? code <;> rfl
  | draw canvas now => exact s.calculator_draw canvas now
  | _ => rfl

theorem keys_cons (step : Step) (steps : List Step) : keys (step :: steps) = keys [step] ++ keys steps := by
  unfold keys
  rw [← List.filterMap_append, ← List.filterMap_append, List.singleton_append]

theorem calculator_run (steps : List Step) :
    (s.run steps).calculator = (keys steps).foldl Calculator.press s.calculator := by
  induction steps generalizing s with
  | nil => rfl
  | cons step steps ih =>
    rw [keys_cons, List.foldl_append, ← calculator_step]
    exact ih (s.step step)

/-- A session's calculator is the bare one that handles the events of the bound codes in their order, whatever the
settings, the engine and the steps between the keys; and no event of a key is aborted. -/
theorem calculator_refines (settings : Settings) (offer : Engine.Offer) (steps : List Step) :
    Calculator.fresh.handleAll (((steps.filterMap Step.code?).filterMap KeyCode.bound?).map Key.event) =
        .ok ((start settings offer).run steps).calculator ∧
      (∀ settings' offer' steps', steps'.filterMap Step.code? = steps.filterMap Step.code? →
        ((start settings' offer').run steps').calculator = ((start settings offer).run steps).calculator) ∧
      ∀ (s : Session) p key, ∃ s' o, s.process p (Key.event key) = (s', .ok o) := by
  refine ⟨?_, ?_, ?_⟩
  · rw [Calculator.handleAll_events, calculator_run]
    rfl
  · intro settings' offer' steps' hcodes
    rw [calculator_run, calculator_run, keys, keys, hcodes]
    rfl
  · intro s p key
    obtain ⟨o, ho⟩ := (s.process_event p key).2
    exact ⟨_, o, Prod.ext rfl ho⟩

end Session

end TalkingCalculator
