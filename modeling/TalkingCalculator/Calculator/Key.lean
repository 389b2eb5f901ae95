import TalkingCalculator.Expression.Token

/-!
# Keys

The keys of the calculator, and the text that each of them types.
-/
namespace TalkingCalculator

/-- The three coefficients, in the order in which the focus visits them. -/
inductive Slot where
  | a
  | b
  | c
deriving DecidableEq, Repr

namespace Slot

def all : List Slot :=
  [a, b, c]

def letter : Slot → String
  | a => "a"
  | b => "b"
  | c => "c"

def next : Slot → Slot
  | a => b
  | b => c
  | c => a

end Slot

inductive Key where
  | digit (d : Fin 10)
  | point
  | operator (op : Operator)
  | function (f : Trig)
  | openParen
  | closeParen
  | clear
  | delete
  | toggleMode
  | cycleFocus
  | focus (slot : Slot)
  | commit
deriving DecidableEq

def digitText (d : Fin 10) : String :=
  (Nat.digitChar d).toString

/-- The text that the key types, which also labels it. -/
def Key.piece? : Key → Option String
  | digit d => some (digitText d)
  | point => some "."
  | operator op => some op.glyph.toString
  | function f => some f.opening
  | openParen => some "("
  | closeParen => some ")"
  | clear | delete | toggleMode | cycleFocus | focus _ | commit => none

end TalkingCalculator
