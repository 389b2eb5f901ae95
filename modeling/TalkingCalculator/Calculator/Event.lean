import TalkingCalculator.Calculator.Basic
import TalkingCalculator.Value

/-!
# Events

Other programs send the calculator events, in which a digit, an operator, a function or a coefficient may be
given as any value. An event is first read as a key, and only a key changes the calculator, so that a refused
event leaves it as it was.
-/
namespace TalkingCalculator

/-- One of the things that a key is for, or a value that should name one. -/
inductive Choice (α : Type) where
  | known (a : α)
  | given (value : Value)

inductive Event where
  | digit (value : Value)
  | point
  | operator (choice : Choice Operator)
  | function (choice : Choice Trig)
  | openParen
  | closeParen
  | clear
  | delete
  | toggleMode
  | cycleFocus
  | focus (choice : Choice Slot)
  | commit
  | unknown (value : Value)

inductive EventError where
  | digit (text : String)
  | operator (value : Value)
  | function (value : Value)
  | slot (value : Value)
  | unknown (value : Value)

def EventError.message : EventError → String
  | digit text => "Dígito inválido: " ++ Text.quote text
  | operator value => value.shown ++ " is not a valid Operator"
  | function value => value.shown ++ " is not a valid TrigFunction"
  | slot value => value.shown ++ " is not a valid Slot"
  | unknown value => "Evento desconocido: " ++ value.shown

/-- The member of `all` that has the given name, which only a text can be. -/
def Choice.resolve {α : Type} (all : List α) (name : α → String) : Choice α → Except Value α
  | known a => .ok a
  | given (.text s) =>
    match all.find? fun a => name a == s with
    | some a => .ok a
    | none => .error (.text s)
  | given value => .error value

/-- The digit that a text consists of. -/
def digitOfText? (text : String) : Option (Fin 10) :=
  (List.finRange 10).find? fun d => digitText d == text

namespace Event

/-- The key that an event stands for, if it is one that does anything in this mode. A coefficient is looked
up only where there is a focus to move. -/
def key (mode : Mode) : Event → Except EventError (Option Key)
  | digit value =>
    match digitOfText? value.plain with
    | some d => .ok (some (.digit d))
    | none => .error (.digit value.plain)
  | point => .ok (some .point)
  | operator choice =>
    match choice.resolve Operator.all (·.glyph.toString) with
    | .ok op => .ok (some (.operator op))
    | .error value => .error (.operator value)
  | function choice =>
    match choice.resolve Trig.all Trig.name with
    | .ok f => .ok (some (.function f))
    | .error value => .error (.function value)
  | openParen => .ok (some .openParen)
  | closeParen => .ok (some .closeParen)
  | clear => .ok (some .clear)
  | delete => .ok (some .delete)
  | toggleMode => .ok (some .toggleMode)
  | cycleFocus => .ok (some .cycleFocus)
  | focus choice =>
    match mode with
    | .expression => .ok none
    | .equation =>
      match choice.resolve Slot.all Slot.letter with
      | .ok slot => .ok (some (.focus slot))
      | .error value => .error (.slot value)
  | commit => .ok (some .commit)
  | unknown value => .error (.unknown value)

end Event

/-- The event of a key. -/
def Key.event : Key → Event
  | digit d => .digit (.text (digitText d))
  | point => .point
  | operator op => .operator (.known op)
  | function f => .function (.known f)
  | openParen => .openParen
  | closeParen => .closeParen
  | clear => .clear
  | delete => .delete
  | toggleMode => .toggleMode
  | cycleFocus => .cycleFocus
  | focus slot => .focus (.known slot)
  | commit => .commit

/-- Applies an event, and tells the outcome of a commit. -/
def Calculator.handle (c : Calculator) (event : Event) :
    Except EventError (Calculator × Option Outcome) :=
  match event.key c.mode with
  | .error e => .error e
  | .ok none => .ok (c, none)
  | .ok (some key) => .ok (c.press key, if key = .commit then some c.outcome else none)

end TalkingCalculator
