import TalkingCalculator.Decimal.Reading
import TalkingCalculator.Expression.Token
import TalkingCalculator.Text.DecimalDigit

/-!
# Lexemes

A text is read as an expression lexeme by lexeme: a run of digits with at most one point, an operator, a
parenthesis, or a function name together with the parenthesis that must follow it. Positions count the
characters from the start of the text.
-/
namespace TalkingCalculator

inductive LexicalError where
  | secondPoint (position : Nat)
  | noDigits (position : Nat)
  | nameWithoutParen (f : Trig) (position : Nat)
  | unknown (c : Char) (position : Nat)
deriving DecidableEq

def LexicalError.position : LexicalError → Nat
  | secondPoint p | noDigits p | nameWithoutParen _ p | unknown _ p => p

/-- The tokens of a lexeme and how many characters it takes. -/
structure Lexeme where
  tokens : List Token
  width : Nat
  width_pos : 0 < width

namespace Lexeme

/-- A number at the start of `cs`, which begins with a digit or a point. -/
def number (position : Nat) (cs : List Char) : Except LexicalError Lexeme :=
  let n := Numeral.leading Text.asciiDigitValue? cs
  if n.point && (cs.drop n.width).head? == some '.' then .error (.secondPoint (position + n.width))
  else if h : 0 < n.digitCount then
    .ok ⟨[.number (n.decimal 0).toFloat], n.width, Nat.lt_of_lt_of_le h (Nat.le_add_right _ _)⟩
  else .error (.noDigits position)

/-- The function whose name stands at the start of `cs`. -/
def function? (cs : List Char) : Option Trig :=
  Trig.all.find? fun f => f.name.toList.isPrefixOf cs

/-- The first lexeme of the text `c :: cs`. -/
def first (position : Nat) (c : Char) (cs : List Char) : Except LexicalError Lexeme :=
  if (Text.asciiDigitValue? c).isSome || c = '.' then number position (c :: cs)
  else if let some op := Operator.ofChar? c then .ok ⟨[.operator op], 1, by omega⟩
  else if c = '(' then .ok ⟨[.leftParen], 1, by omega⟩
  else if c = ')' then .ok ⟨[.rightParen], 1, by omega⟩
  else match function? (c :: cs) with
    | some f =>
      if f.opening.toList.isPrefixOf (c :: cs) then
        .ok ⟨[.function f, .leftParen], f.name.length + 1, by omega⟩
      else .error (.nameWithoutParen f position)
    | none => .error (.unknown c position)

end Lexeme

/-- The tokens of a text whose first character stands at `position`. -/
def Token.scan (position : Nat) : List Char → Except LexicalError (List Token)
  | [] => .ok []
  | c :: cs =>
    match Lexeme.first position c cs with
    | .error e => .error e
    | .ok l =>
      match Token.scan (position + l.width) ((c :: cs).drop l.width) with
      | .error e => .error e
      | .ok tokens => .ok (l.tokens ++ tokens)
termination_by cs => cs.length
decreasing_by
  have := l.width_pos
  simp only [List.length_drop, List.length_cons]
  omega

def tokenize (text : String) : Except LexicalError (List Token) :=
  Token.scan 0 text.toList

end TalkingCalculator
