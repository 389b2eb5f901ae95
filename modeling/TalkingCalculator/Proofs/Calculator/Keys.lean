import TalkingCalculator.Calculator.Event

/-!
# Keys as events

The event of a key is never refused, and it does what the key does.
-/
namespace TalkingCalculator

theorem digitOfText?_digitText (d : Fin 10) : digitOfText? (digitText d) = some d := by
  revert d
  decide

namespace Calculator

/-- Outside equation mode there is no focus to move, and the event of such a key is left aside. -/
theorem handle_event (c : Calculator) (key : Key) :
    c.handle key.event = .ok (c.press key, if key = .commit then some c.outcome else none) := by
  cases key with
  | digit d =>
    have hkey : (Key.digit d).event.key c.mode = .ok (some (.digit d)) := by
      simp only [Key.event, Event.key, Value.plain, digitOfText?_digitText]
    unfold handle
    rw [hkey]
  | focus slot =>
    unfold handle press
    cases hmode : c.mode with
    | expression => simp [Key.event, Event.key, moveFocus, hmode]
    | equation => simp [Key.event, Event.key, moveFocus, hmode, Choice.resolve]
  | _ => rfl

def handleAll (c : Calculator) : List Event → Except EventError Calculator
  | [] => .ok c
  | event :: events =>
    match c.handle event with
    | .error e => .error e
    | .ok (next, _) => next.handleAll events

theorem handleAll_events (c : Calculator) (keys : List Key) :
    c.handleAll (keys.map Key.event) = .ok (keys.foldl press c) := by
  induction keys generalizing c with
  | nil => rfl
  | cons key keys ih =>
    rw [List.map_cons, handleAll, handle_event]
    exact ih (c.press key)

end Calculator

end TalkingCalculator
