import TalkingCalculator.Calculator.Key
import TalkingCalculator.Equation.Roots
import TalkingCalculator.Expression.Evaluation

/-!
# The calculator

In expression mode keys write on the display, and a commit replaces the text by its value. In equation mode
they write to the coefficient that has the focus, and a commit shows the roots on the display. The modes share
the display and nothing else, and changing the mode keeps every text.
-/
namespace TalkingCalculator

inductive Mode where
  | expression
  | equation
deriving DecidableEq, Repr

namespace Mode

def name : Mode → String
  | expression => "expression"
  | equation => "equation"

def other : Mode → Mode
  | expression => equation
  | equation => expression

end Mode

structure Coefficients where
  a : String
  b : String
  c : String
deriving DecidableEq, Repr

namespace Coefficients

def empty : Coefficients :=
  ⟨"", "", ""⟩

def get (k : Coefficients) : Slot → String
  | .a => k.a
  | .b => k.b
  | .c => k.c

def set (k : Coefficients) (slot : Slot) (text : String) : Coefficients :=
  match slot with
  | .a => { k with a := text }
  | .b => { k with b := text }
  | .c => { k with c := text }

theorem set_get (k : Coefficients) (s : Slot) : k.set s (k.get s) = k := by
  cases s <;> rfl

theorem get_set_same (k : Coefficients) (s : Slot) (text : String) : (k.set s text).get s = text := by
  cases s <;> rfl

theorem get_set_other (k : Coefficients) {s t : Slot} (text : String) (h : t ≠ s) :
    (k.set s text).get t = k.get t := by
  cases s <;> cases t <;> simp_all [get, set]

end Coefficients

/-- What an empty display shows. -/
def placeholder : String := "0"

def expressionFailure : String := "Error"

def equationFailure : String := "Error solving equation"

structure Calculator where
  mode : Mode
  display : String
  coefficients : Coefficients
  active : Slot
deriving DecidableEq, Repr

/-- What a commit tells: whether it succeeded, and the text that it shows. -/
structure Outcome where
  success : Bool
  text : String
deriving DecidableEq, Repr

namespace Calculator

def fresh : Calculator :=
  ⟨.expression, placeholder, .empty, .a⟩

/-- The text that keys write to. -/
def buffer (c : Calculator) : String :=
  match c.mode with
  | .expression => c.display
  | .equation => c.coefficients.get c.active

def setBuffer (c : Calculator) (text : String) : Calculator :=
  match c.mode with
  | .expression => { c with display := text }
  | .equation => { c with coefficients := c.coefficients.set c.active text }

theorem buffer_setBuffer (c : Calculator) (text : String) : (c.setBuffer text).buffer = text := by
  cases hm : c.mode with
  | expression => simp [setBuffer, buffer, hm]
  | equation => simp [setBuffer, buffer, hm, Coefficients.get_set_same]

theorem setBuffer_buffer (c : Calculator) : c.setBuffer c.buffer = c := by
  obtain ⟨mode, display, coefficients, active⟩ := c
  cases mode with
  | expression => rfl
  | equation => simp [setBuffer, buffer, Coefficients.set_get]

theorem mode_setBuffer (c : Calculator) (text : String) : (c.setBuffer text).mode = c.mode := by
  cases hm : c.mode <;> simp [setBuffer, hm]

def append (c : Calculator) (piece : String) : Calculator :=
  c.setBuffer (c.buffer ++ piece)

/-- Appends a piece, or puts it in the place of a lone zero on the display. -/
def appendOperand (c : Calculator) (piece : String) : Calculator :=
  if c.mode = .expression ∧ c.display = placeholder then c.setBuffer piece else c.append piece

def clear (c : Calculator) : Calculator :=
  match c.mode with
  | .expression => { c with display := placeholder }
  | .equation => { c with coefficients := .empty }

/-- Takes the last character away; the display never becomes empty. -/
def delete (c : Calculator) : Calculator :=
  let left := String.ofList c.buffer.toList.dropLast
  c.setBuffer (if c.mode = .expression ∧ left = "" then placeholder else left)

def toggleMode (c : Calculator) : Calculator :=
  { c with mode := c.mode.other }

/-- The focus moves in equation mode only. -/
def moveFocus (c : Calculator) (slot : Slot) : Calculator :=
  match c.mode with
  | .expression => c
  | .equation => { c with active := slot }

def outcome (c : Calculator) : Outcome :=
  match c.mode with
  | .expression =>
    match evaluate c.display with
    | .ok v => ⟨true, displayNumber v⟩
    | .error _ => ⟨false, expressionFailure⟩
  | .equation =>
    match solveTexts c.coefficients.a c.coefficients.b c.coefficients.c with
    | .ok r => ⟨true, r.display⟩
    | .error _ => ⟨false, equationFailure⟩

/-- Every error ends here, as a text on the display. -/
def commit (c : Calculator) : Calculator :=
  { c with display := c.outcome.text }

/-- Parentheses have no use in a coefficient and type nothing there. -/
def press (c : Calculator) : Key → Calculator
  | .digit d => c.appendOperand (digitText d)
  | .point => c.append "."
  | .operator op => c.append op.glyph.toString
  | .function f => c.appendOperand f.opening
  | .openParen => if c.mode = .expression then c.appendOperand "(" else c
  | .closeParen => if c.mode = .expression then c.append ")" else c
  | .clear => c.clear
  | .delete => c.delete
  | .toggleMode => c.toggleMode
  | .cycleFocus => c.moveFocus c.active.next
  | .focus slot => c.moveFocus slot
  | .commit => c.commit

end Calculator

/-- What a screen may see of a calculator. -/
inductive View where
  | expression (display : String)
  | equation (display : String) (coefficients : Coefficients) (active : Slot)
deriving DecidableEq, Repr

namespace View

def mode : View → Mode
  | expression _ => .expression
  | equation .. => .equation

def display : View → String
  | expression d => d
  | equation d _ _ => d

end View

def Calculator.view (c : Calculator) : View :=
  match c.mode with
  | .expression => .expression c.display
  | .equation => .equation c.display c.coefficients c.active

end TalkingCalculator
