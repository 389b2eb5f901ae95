import TalkingCalculator.Decimal.Style

/-!
# Fixed places

A double is written with a fixed number of places by rounding its exact value once. A half goes to the even
neighbour, all digits before the point are written, and a negative number keeps its sign even when it rounds
to zero.
-/
namespace TalkingCalculator

/-- The natural number nearest to `num / den`, the even one of two. -/
def roundDiv (num den : Nat) : Nat :=
  let below := num / den
  let left := num % den
  if 2 * left < den ∨ (2 * left = den ∧ below % 2 = 0) then below else below + 1

namespace Fixed

/-- The double `mantissa * 2 ^ exponent` in units of the last of `places` places. -/
def units (places mantissa : Nat) (exponent : Int) : Nat :=
  roundDiv (mantissa * Nat.pow 2 exponent.toNat * Nat.pow 10 places) (Nat.pow 2 (-exponent).toNat)

/-- Exactly `width` digits, the last ones of the number. -/
def padded (width n : Nat) : List Char :=
  match width with
  | 0 => []
  | width + 1 => padded width (n / 10) ++ [Nat.digitChar (n % 10)]

def digits (places n : Nat) : List Char :=
  Nat.toDigits 10 (n / Nat.pow 10 places) ++ '.' :: padded places n

def chars (places : Nat) (x : Float) : List Char :=
  match x.toModel.unpack with
  | .notANumber => ['n', 'a', 'n']
  | .infinity sign => Style.signed sign ['i', 'n', 'f']
  | .zero sign => Style.signed sign (digits places 0)
  | .finite sign mantissa exponent _ => Style.signed sign (digits places (units places mantissa exponent))

def write (places : Nat) (x : Float) : String :=
  String.ofList (chars places x)

end Fixed

end TalkingCalculator
