/-!
# Shortest decimals

Every finite double has a span of numbers that round to it. The shortest decimal of a double is the one in
its span with the fewest digits and, among those, the one nearest to the double; a tie goes to the even digit.
Grids of a power of ten are tried from the coarsest that matters to the finest, and on each grid only the two
neighbours of the double can be nearest.
-/
namespace TalkingCalculator

/-- The number `digits * 10 ^ exponent`. -/
structure Decimal where
  digits : Nat
  exponent : Int
deriving DecidableEq, Repr

/-- How many digits a number is written with in base ten. -/
def decimalLength (n : Nat) : Nat :=
  if n < 10 then 1 else decimalLength (n / 10) + 1
termination_by n

/-- The exponent of the first decimal digit of the positive fraction `num / den`. -/
def leadingExponent (num den : Nat) : Int :=
  if den ≤ num then decimalLength (num / den) - 1 else -decimalLength ((den - 1) / num)

/-- The numbers from `low` to `high`, all times `2 ^ exponent`, are those that round to `centre`. The two
ends count as inside when `closed`. -/
structure Span where
  low : Nat
  centre : Nat
  high : Nat
  exponent : Int
  closed : Bool

namespace Span

/-- The span of the double `mantissa * 2 ^ exponent`, in quarters of its last place. Below a power of two
the doubles stand twice as close, except at the smallest exponent; the mantissa of a power of two is
`2 ^ 52`. An end is a tie between two doubles and goes to the one with the even mantissa. -/
def of (mantissa : Nat) (exponent : Int) : Span where
  low := 4 * mantissa - if mantissa = 4503599627370496 ∧ -1074 < exponent then 1 else 2
  centre := 4 * mantissa
  high := 4 * mantissa + 2
  exponent := exponent - 2
  closed := mantissa % 2 = 0

/-- A unit of the span, in steps of `10 ^ k`, as a fraction. -/
def unit (s : Span) (k : Int) : Nat × Nat :=
  (Nat.pow 2 s.exponent.toNat * Nat.pow 10 (-k).toNat,
    Nat.pow 2 (-s.exponent).toNat * Nat.pow 10 k.toNat)

/-- Whether `d` steps of `10 ^ k` lie in the span. -/
def holds (s : Span) (k : Int) (d : Nat) : Bool :=
  let (num, den) := s.unit k
  if s.closed then s.low * num ≤ d * den && d * den ≤ s.high * num
  else s.low * num < d * den && d * den < s.high * num

/-- The number of steps of `10 ^ k` that lies in the span and nearest to its centre. -/
def nearest? (s : Span) (k : Int) : Option Nat :=
  let (num, den) := s.unit k
  let below := s.centre * num / den
  let left := s.centre * num % den
  match s.holds k below, s.holds k (below + 1) with
  | false, false => none
  | true, false => some below
  | false, true => some (below + 1)
  | true, true =>
    some (if 2 * left < den ∨ (2 * left = den ∧ below % 2 = 0) then below else below + 1)

/-- The exponent of the first decimal digit of the centre. -/
def firstPlace (s : Span) : Int :=
  leadingExponent (s.centre * Nat.pow 2 s.exponent.toNat) (Nat.pow 2 (-s.exponent).toNat)

/-- The centre itself. -/
def exact (s : Span) : Decimal :=
  if 0 ≤ s.exponent then ⟨s.centre * Nat.pow 2 s.exponent.toNat, 0⟩
  else ⟨s.centre * Nat.pow 5 (-s.exponent).toNat, s.exponent⟩

/-- The nearest decimal of the span with `extra + 1` digits. -/
def withDigits (s : Span) (extra : Nat) : Option Decimal :=
  (s.nearest? (s.firstPlace - extra)).map fun d => ⟨d, s.firstPlace - extra⟩

/-- Seventeen digits tell all doubles apart, so the centre itself is never needed. -/
def shortest (s : Span) : Decimal :=
  ((List.range 17).findSome? s.withDigits).getD s.exact

end Span

namespace Decimal

/-- The same number without zeros at its end. -/
def trim (d : Decimal) : Decimal :=
  if d.digits ≠ 0 ∧ d.digits % 10 = 0 then trim ⟨d.digits / 10, d.exponent + 1⟩ else d
termination_by d.digits
decreasing_by omega

/-- The shortest decimal of the double `mantissa * 2 ^ exponent`. -/
def ofBinary (mantissa : Nat) (exponent : Int) : Decimal :=
  (Span.of mantissa exponent).shortest.trim

end Decimal

end TalkingCalculator
