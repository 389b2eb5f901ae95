import TalkingCalculator.Decimal.Fixed

/-!
# Numbers of bytes

A number of bytes below 1024 is written as it is, and a greater one with three digits in the greatest binary unit
that is not above it.
-/
namespace TalkingCalculator.Text

/-- The units, each 1024 times the one before it. -/
def byteUnits : List String :=
  ["bytes", "KiB", "MiB", "GiB", "TiB", "PiB", "EiB"]

/-- The place of the greatest unit. -/
def lastUnit : Nat := 6

/-- A number written with as many places, two at most, as leave three digits. The point is always written. -/
def threeDigits (x : Float) : String :=
  if (Fixed.write 2 x).length ≤ 4 then Fixed.write 2 x
  else if (Fixed.write 1 x).length ≤ 4 then Fixed.write 1 x
  else Fixed.write 0 x

def unitName (unit : Nat) : String :=
  (byteUnits[unit]?).getD ""

/-- What rounds to 1024 of a unit is written as one of the next. -/
def byteCount (n : Nat) : String :=
  if n < 1024 then toString n ++ " " ++ unitName 0
  else
    let unit := min (n.log2 / 10) lastUnit
    let x := Float.ofNat n / Float.ofNat (Nat.pow 1024 unit)
    if unit < lastUnit && 1023.5 ≤ x then threeDigits (x / 1024.0) ++ " " ++ unitName (unit + 1)
    else threeDigits x ++ " " ++ unitName unit

end TalkingCalculator.Text
