import TalkingCalculator.Decimal.Shortest

/-!
# Reading decimals

A numeral is a row of digits with at most one point. It is as long as it can be, and what is a digit is for
its reader to say. A decimal reads as the double nearest to it, the even one of two, and as infinity from
halfway beyond the largest double on.
-/
namespace TalkingCalculator

namespace Decimal

/-- The number written by digit values, first digit first. -/
def ofDigits (ds : List Nat) : Nat :=
  ds.foldl (fun n d => 10 * n + d) 0

/-- The nearest double, however many digits there are; no limit that a system may set on them counts. -/
def toFloat (d : Decimal) : Float :=
  .ofModel (.ofScientific d.digits d.exponent)

end Decimal

/-- The values of the digits before and after the point. -/
structure Numeral where
  whole : List Nat
  point : Bool
  fraction : List Nat
deriving DecidableEq, Repr

namespace Numeral

/-- The values of the digits that stand at the start of a text. -/
def leadingDigits (digit : Char → Option Nat) : List Char → List Nat
  | [] => []
  | c :: cs =>
    match digit c with
    | some d => d :: leadingDigits digit cs
    | none => []

/-- The numeral at the start of a text, which may be empty. -/
def leading (digit : Char → Option Nat) (cs : List Char) : Numeral :=
  let whole := leadingDigits digit cs
  match cs.drop whole.length with
  | '.' :: after => ⟨whole, true, leadingDigits digit after⟩
  | _ => ⟨whole, false, []⟩

def digitCount (n : Numeral) : Nat :=
  n.whole.length + n.fraction.length

/-- How many characters the numeral takes. -/
def width (n : Numeral) : Nat :=
  n.digitCount + if n.point then 1 else 0

/-- The number that is written, times `10 ^ exponent`. -/
def decimal (n : Numeral) (exponent : Int) : Decimal :=
  ⟨Decimal.ofDigits (n.whole ++ n.fraction), exponent - n.fraction.length⟩

end Numeral

/-- The whole part of a double, which lies towards zero; an infinite one and NaN have none and give zero. -/
def wholePart (x : Float) : Int :=
  x.toModel.unpack.toInt 0 0

end TalkingCalculator
