import TalkingCalculator.Decimal.Style
import TalkingCalculator.Text.Quoted

/-!
# Values

The values that a caller may hand to the calculator where it expects a digit, an operator, a function or a
coefficient field, and the way messages show them.
-/
namespace TalkingCalculator

/-- Messages write small and moderate numbers positionally, with a point, and others with an exponent. -/
def reportStyle : Style where
  positional e := -4 ≤ e && e < 16
  wholeEnding := ['.', '0']

inductive Value where
  | nothing
  | truth (value : Bool)
  | whole (value : Int)
  | real (value : Float)
  | text (value : String)
  | list (items : List Value)
  | record (fields : List (String × Value))
deriving Inhabited

namespace Value

mutual

/-- The value as a message shows it: texts stand between quotes, items between brackets, and fields between
braces, each after its name. A whole number is shown with all its digits, also where a system would refuse to write
as many. -/
def shown : Value → String
  | nothing => "None"
  | truth true => "True"
  | truth false => "False"
  | whole n => toString n
  | real x => reportStyle.write x
  | text s => Text.quote s
  | list items => "[" ++ ", ".intercalate (shownItems items) ++ "]"
  | record fields => "\x7b" ++ ", ".intercalate (shownFields fields) ++ "\x7d"

def shownItems : List Value → List String
  | [] => []
  | v :: rest => v.shown :: shownItems rest

def shownFields : List (String × Value) → List String
  | [] => []
  | (name, v) :: rest => (Text.quote name ++ ": " ++ v.shown) :: shownFields rest

end

/-- What kind of value it is, as a message names it. -/
def kind : Value → String
  | nothing => "NoneType"
  | truth _ => "bool"
  | whole _ => "int"
  | real _ => "float"
  | text _ => "str"
  | list _ => "list"
  | record _ => "dict"

/-- The value as a text; a text stands for itself. -/
def plain : Value → String
  | text s => s
  | value => value.shown

end Value

end TalkingCalculator
