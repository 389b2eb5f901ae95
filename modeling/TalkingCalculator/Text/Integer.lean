import TalkingCalculator.Text.Blank
import TalkingCalculator.Text.DecimalDigit

/-!
# Written integers

An integer is written with digits of any script, a single underscore between two of them where one likes, a
sign before them, and blanks around. More than 4300 digits are refused.
-/
namespace TalkingCalculator.Text

/-- Blanks around an integer; of the control block only the line and tab characters count. -/
def isIntegerBlank (c : Char) : Bool :=
  if c.toNat < 128 then c = ' ' || ('\t' ≤ c && c ≤ '\r') else isBlank c

/-- The values of digits that may be parted by single underscores. -/
def partedDigits? (afterDigit : Bool) : List Char → Option (List Nat)
  | [] => if afterDigit then some [] else none
  | c :: cs =>
    if c = '_' then
      if afterDigit then partedDigits? false cs else none
    else match digitValue? c with
      | some d => (partedDigits? true cs).map (d :: ·)
      | none => none

def magnitude? (cs : List Char) : Option Nat :=
  match partedDigits? false cs with
  | some ds => if ds.length ≤ 4300 then some (ds.foldl (fun n d => 10 * n + d) 0) else none
  | none => none

def readInteger? (s : String) : Option Int :=
  let cs := s.toList.dropWhile isIntegerBlank
  match (cs.reverse.dropWhile isIntegerBlank).reverse with
  | '-' :: cs => (magnitude? cs).map fun n => -(n : Int)
  | '+' :: cs => (magnitude? cs).map fun n => (n : Int)
  | cs => (magnitude? cs).map fun n => (n : Int)

end TalkingCalculator.Text
