import TalkingCalculator.Calculator.Event
import TalkingCalculator.Expression.Journal

/-!
# Records of the calculator

A change of mode and a failed commit leave records of their own. The records of an event are told from the
state before it.
-/
namespace TalkingCalculator

namespace Calculator

def commitRecords (c : Calculator) : List Record :=
  match c.mode with
  | .expression =>
    evaluateRecords c.display ++ match evaluate c.display with
      | .ok _ => []
      | .error e =>
        [⟨.calculator, .info, "Error al evaluar " ++ Text.quote c.display ++ ": " ++ e.message⟩]
  | .equation =>
    let ⟨a, b, d⟩ := c.coefficients
    match solveTexts a b d with
    | .ok _ => solveRecords (readCoefficient a) (readCoefficient b) (readCoefficient d)
    | .error e =>
      [⟨.calculator, .info, "Error al resolver a=" ++ Text.quote a ++ " b=" ++ Text.quote b ++ " c=" ++
        Text.quote d ++ ": " ++ e.message⟩]

def pressRecords (c : Calculator) : Key → List Record
  | .toggleMode => [⟨.calculator, .debug, "Modo: " ++ c.mode.other.name⟩]
  | .commit => c.commitRecords
  | _ => []

def handleRecords (c : Calculator) (event : Event) : List Record :=
  match event.key c.mode with
  | .ok (some key) => c.pressRecords key
  | _ => []

end Calculator

end TalkingCalculator
