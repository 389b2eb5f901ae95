/-!
# Tokens

An expression is a row of numbers, operators, function names and parentheses.
-/
namespace TalkingCalculator

inductive Operator where
  | add
  | subtract
  | multiply
  | divide
deriving DecidableEq, Repr

namespace Operator

def all : List Operator :=
  [add, subtract, multiply, divide]

/-- The sign on the display. -/
def glyph : Operator → Char
  | add => '+'
  | subtract => '−'
  | multiply => '×'
  | divide => '÷'

/-- The operator written by a character. Minus, times and over have a second spelling. -/
def ofChar? : Char → Option Operator
  | '+' => some add
  | '−' | '-' => some subtract
  | '×' | '*' => some multiply
  | '÷' | '/' => some divide
  | _ => none

theorem ofChar?_glyph (op : Operator) : ofChar? op.glyph = some op := by
  cases op <;> rfl

end Operator

/-- The functions, of an angle in radians. -/
inductive Trig where
  | sin
  | cos
  | tan
deriving DecidableEq, Repr

namespace Trig

def all : List Trig :=
  [sin, cos, tan]

def name : Trig → String
  | sin => "sin"
  | cos => "cos"
  | tan => "tan"

/-- What the key of the function types. -/
def opening (f : Trig) : String :=
  f.name ++ "("

def value : Trig → Float → Float
  | sin, x => x.sin
  | cos, x => x.cos
  | tan, x => x.tan

end Trig

inductive Token where
  | number (value : Float)
  | operator (op : Operator)
  | function (f : Trig)
  | leftParen
  | rightParen
deriving DecidableEq

end TalkingCalculator
