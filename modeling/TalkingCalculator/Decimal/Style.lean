import TalkingCalculator.Decimal.Shortest

/-!
# Styles of decimals

A style fixes how the shortest decimal of a double is laid out: which exponents are written positionally and
how a whole number ends. Exponents are written with a sign and at least two digits.
-/
namespace TalkingCalculator

namespace Decimal

/-- The digits before and after the point. -/
def split (d : Decimal) : List Char × List Char :=
  let ds := Nat.toDigits 10 d.digits
  match d.exponent with
  | .ofNat k => (ds ++ List.replicate k '0', [])
  | .negSucc k =>
    if k + 1 < ds.length then (ds.take (ds.length - (k + 1)), ds.drop (ds.length - (k + 1)))
    else (['0'], List.replicate (k + 1 - ds.length) '0' ++ ds)

/-- The exponent of the first digit. -/
def firstPlace (d : Decimal) : Int :=
  (Nat.toDigits 10 d.digits).length + d.exponent - 1

end Decimal

structure Style where
  /-- Whether a number whose first digit has this exponent is written positionally. -/
  positional : Int → Bool
  /-- What follows the digits of a whole number. -/
  wholeEnding : List Char

namespace Style

def withPoint (ending whole : List Char) : List Char → List Char
  | [] => whole ++ ending
  | fraction => whole ++ '.' :: fraction

def exponentChars (e : Int) : List Char :=
  let ds := Nat.toDigits 10 e.natAbs
  'e' :: (if e < 0 then '-' else '+') :: (List.replicate (2 - ds.length) '0' ++ ds)

def scientific (d : Decimal) : List Char :=
  let ds := Nat.toDigits 10 d.digits
  withPoint [] (ds.take 1) (ds.drop 1) ++ exponentChars d.firstPlace

def decimal (s : Style) (d : Decimal) : List Char :=
  if s.positional d.firstPlace then withPoint s.wholeEnding d.split.1 d.split.2 else scientific d

def signed (sign : Float.Model.UnpackedFloat.Sign) (cs : List Char) : List Char :=
  match sign with
  | .positive => cs
  | .negative => '-' :: cs

def chars (s : Style) (x : Float) : List Char :=
  match x.toModel.unpack with
  | .notANumber => ['n', 'a', 'n']
  | .infinity sign => signed sign ['i', 'n', 'f']
  | .zero sign => signed sign (s.decimal ⟨0, 0⟩)
  | .finite sign mantissa exponent _ => signed sign (s.decimal (.ofBinary mantissa exponent))

def write (s : Style) (x : Float) : String :=
  String.ofList (s.chars x)

end Style

end TalkingCalculator
