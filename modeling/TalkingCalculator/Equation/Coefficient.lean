import TalkingCalculator.Decimal.Reading
import TalkingCalculator.Text.Blank
import TalkingCalculator.Text.DecimalDigit

/-!
# Coefficients

A coefficient is a free text, of which only the number at its start counts, after blanks: a sign, digits with
at most one point, and an exponent, each part as long as it can be. Digits of any script count by their value,
and the minus of the keypad counts as the minus of a keyboard. A text without such a number counts as zero.
-/
namespace TalkingCalculator

namespace Coefficient

/-- A sign at the start, whether it is a minus, and what follows it. -/
def sign : List Char → Bool × List Char
  | '-' :: cs => (true, cs)
  | '+' :: cs => (false, cs)
  | cs => (false, cs)

/-- The value of the exponent at the start, zero if none stands there. -/
def exponent : List Char → Int
  | [] => 0
  | c :: cs =>
    if c = 'e' ∨ c = 'E' then
      let (negative, cs) := sign cs
      let magnitude := Decimal.ofDigits (Numeral.leadingDigits Text.digitValue? cs)
      if negative then -magnitude else magnitude
    else 0

/-- The number at the start of a text, which has no blanks before it. -/
def leading? (cs : List Char) : Option Float :=
  let (negative, cs) := sign cs
  let n := Numeral.leading Text.digitValue? cs
  if n.digitCount = 0 then none
  else
    let x := (n.decimal (exponent (cs.drop n.width))).toFloat
    some (if negative then -x else x)

end Coefficient

def readCoefficient (text : String) : Float :=
  let cs := text.toList.map fun c => if c = '−' then '-' else c
  (Coefficient.leading? (cs.dropWhile Text.isBlank)).getD 0.0

end TalkingCalculator
