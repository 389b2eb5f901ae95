import TalkingCalculator.Text.Blank
import TalkingCalculator.Text.Replace

/-!
# Spoken texts

How the texts of the calculator are read aloud in Spanish. The signs of the display have readings, which
replace them one sign after another, the two-character ones first; words are then parted by single spaces.
-/
namespace TalkingCalculator

namespace Spoken

/-- The signs that have a reading, in the order in which they are replaced. -/
def readings : List (String × String) :=
  [("x₁", "equis uno"), ("x₂", "equis dos"), ("+", " más "), ("−", " menos "), ("-", " menos "),
    ("×", " por "), ("÷", " dividido entre "), (".", " coma "), ("(", " abre paréntesis "),
    (")", " cierra paréntesis "), ("=", " igual a "), ("x", "equis"), (",", ", ")]

/-- A key of a single digit is read by the name of the digit. -/
def digitNames : List (String × String) :=
  [("0", "cero"), ("1", "uno"), ("2", "dos"), ("3", "tres"), ("4", "cuatro"), ("5", "cinco"),
    ("6", "seis"), ("7", "siete"), ("8", "ocho"), ("9", "nueve")]

/-- Words parted by single spaces. -/
def spaced (cs : List Char) : List Char :=
  [' '].intercalate (Text.words cs)

def replaceSigns (cs : List Char) : List Char :=
  readings.foldl (fun cs r => Text.replaceAll r.1.toList r.2.toList cs) cs

def read (text : String) : String :=
  String.ofList (spaced (replaceSigns text.toList))

/-- What is said for a key; the parenthesis that a function types is left out. -/
def key (label : String) : String :=
  match digitNames.lookup label with
  | some name => name
  | none => read (String.ofList (label.toList.reverse.dropWhile (· = '(')).reverse)

def result (text : String) : String :=
  "igual a " ++ read text

end Spoken

end TalkingCalculator
