import TalkingCalculator.Proofs.Calculator.Parts

/-!
# Runs of events

A calculator attends to events one after another, and a refused one is as good as none. Every state that events
lead to is therefore one that keys lead to, and what every key keeps, every run of events keeps.
-/
namespace TalkingCalculator

namespace Calculator

variable (c : Calculator)

/-- The state after an event, which is the state before it when the event is refused. -/
def attend (event : Event) : Calculator :=
  match c.handle event with
  | .ok (next, _) => next
  | .error _ => c

def attendAll (events : List Event) : Calculator :=
  events.foldl attend c

theorem attendAll_cons (event : Event) (events : List Event) :
    c.attendAll (event :: events) = (c.attend event).attendAll events := rfl

theorem attendAll_append (before after : List Event) :
    c.attendAll (before ++ after) = (c.attendAll before).attendAll after :=
  List.foldl_append

/-- An event is refused, has nothing to do, or is a key. -/
theorem attend_eq (event : Event) :
    c.attend event = match event.key c.mode with
      | .ok (some key) => c.press key
      | _ => c := by
  unfold attend handle
  cases event.key c.mode with
  | error e => rfl
  | ok key? => cases key? <;> rfl

theorem attend_cases (event : Event) :
    c.attend event = c ∨ ∃ key, event.key c.mode = .ok (some key) ∧ c.attend event = c.press key := by
  rw [attend_eq]
  cases hkey : event.key c.mode with
  | error e => exact Or.inl rfl
  | ok key? =>
    cases key? with
    | none => exact Or.inl rfl
    | some key => exact Or.inr ⟨key, rfl, rfl⟩

variable {c}

theorem same_attend {event : Event} {p : Part} (hp : p ∉ event.parts c) : p.Same c (c.attend event) := by
  rcases c.attend_cases event with h | ⟨key, hkey, h⟩
  · rw [h]
    exact p.same_refl c
  · rw [h]
    rw [parts_of_key hkey] at hp
    exact same_press key hp

/-- What every key keeps, every run of events keeps. -/
theorem attendAll_keeps {P : Calculator → Prop} (hpress : ∀ c key, P c → P (c.press key)) (hc : P c)
    (events : List Event) : P (c.attendAll events) := by
  induction events generalizing c with
  | nil => exact hc
  | cons event events ih =>
    refine ih ?_
    rcases c.attend_cases event with h | ⟨key, -, h⟩
    · rw [h]
      exact hc
    · rw [h]
      exact hpress c key hc

end Calculator

end TalkingCalculator
