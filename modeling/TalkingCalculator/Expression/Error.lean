import TalkingCalculator.Expression.Lexeme
import TalkingCalculator.Value

/-!
# Why an expression has no value
-/
namespace TalkingCalculator

inductive EvaluationError where
  | lexical (e : LexicalError)
  | empty
  | unexpected (position : Nat) (token : Token)
  | operandMissing
  | operandExpected (position : Nat)
  | parenMissing (f : Trig)
  | emptyParens
  | unclosedParens
  | tooDeep
  | divisionByZero
  | undefined (f : Trig) (argument : Float)
  | notFinite (value : Float)
deriving DecidableEq

/-- How many parentheses may be open at once. -/
def maxNesting : Nat := 100

/-- A token as messages show it. -/
def Token.shown : Token → String
  | number v => "NumberToken(value=" ++ reportStyle.write v ++ ")"
  | operator .add => "OperatorToken(operator=<Operator.ADD: '+'>)"
  | operator .subtract => "OperatorToken(operator=<Operator.SUBTRACT: '−'>)"
  | operator .multiply => "OperatorToken(operator=<Operator.MULTIPLY: '×'>)"
  | operator .divide => "OperatorToken(operator=<Operator.DIVIDE: '÷'>)"
  | function .sin => "FunctionToken(function=<TrigFunction.SIN: 'sin'>)"
  | function .cos => "FunctionToken(function=<TrigFunction.COS: 'cos'>)"
  | function .tan => "FunctionToken(function=<TrigFunction.TAN: 'tan'>)"
  | leftParen => "LeftParen()"
  | rightParen => "RightParen()"

def LexicalError.message : LexicalError → String
  | secondPoint p => s!"Segundo punto decimal en posición {p}"
  | noDigits p => s!"Número sin dígitos en posición {p}"
  | nameWithoutParen f _ => "Falta '(' tras '" ++ f.name ++ "'"
  | unknown c p => "Carácter no reconocido " ++ Text.quote c.toString ++ s!" en posición {p}"

namespace EvaluationError

def message : EvaluationError → String
  | lexical e => e.message
  | empty => "Expresión vacía"
  | unexpected p t => s!"Token inesperado en posición {p}: " ++ t.shown
  | operandMissing => "Falta un operando al final de la expresión"
  | operandExpected p => s!"Se esperaba un operando en posición {p}"
  | parenMissing f => "Falta '(' tras " ++ f.name
  | emptyParens => "Paréntesis vacío"
  | unclosedParens => "Paréntesis sin cerrar"
  | tooDeep => s!"Más de {maxNesting} paréntesis anidados"
  | divisionByZero => "División entre cero"
  | undefined f x => f.name ++ "(" ++ reportStyle.write x ++ ") no está definido"
  | notFinite v => "Resultado no finito: " ++ reportStyle.write v

/-- Whether the tokens form no expression, whatever their values. -/
def isStructural : EvaluationError → Bool
  | empty | unexpected .. | operandMissing | operandExpected _ | parenMissing _ | emptyParens
  | unclosedParens | tooDeep => true
  | lexical _ | divisionByZero | undefined .. | notFinite _ => false

end EvaluationError

end TalkingCalculator
