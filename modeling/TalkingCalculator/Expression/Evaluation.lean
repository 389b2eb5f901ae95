import TalkingCalculator.Expression.Error

/-!
# Evaluation

An expression is evaluated while it is read, from left to right:

* an expression is a sum of products;
* a product combines operands;
* an operand is a number, an expression in parentheses, or a function of one, with a minus before it where
  one is allowed: at the start, after a parenthesis, and after plus, times and over.

Every reader returns the tokens that it leaves, fewer than it was given. What stands in parentheses is read
with one level of nesting less to spend.
-/
namespace TalkingCalculator

/-- A value and the tokens after it, fewer than `bound`. -/
structure Reading (bound : Nat) where
  value : Float
  rest : List Token
  shorter : rest.length < bound

/-- Reads a value from the start of a row of tokens. -/
abbrev Reader :=
  (tokens : List Token) → Except EvaluationError (Reading tokens.length)

/-- The value of a function, which has none at the infinities. -/
def Trig.apply (f : Trig) (x : Float) : Except EvaluationError Float :=
  if x.isInf then .error (.undefined f x) else .ok (f.value x)

def quotient (x y : Float) : Except EvaluationError Float :=
  if y == 0.0 then .error .divisionByZero else .ok (x / y)

namespace Reader

/-- A number, or a group with its function. `total` is the number of tokens of the whole expression and
`group` reads what stands after an opening parenthesis. -/
def factor (total : Nat) (group : Reader) : Reader
  | [] => .error .operandMissing
  | .number v :: rest => .ok ⟨v, rest, by simp⟩
  | .leftParen :: rest => do
    let r ← group rest
    .ok ⟨r.value, r.rest, by have := r.shorter; simp only [List.length_cons]; omega⟩
  | .function f :: .leftParen :: rest => do
    let r ← group rest
    let v ← f.apply r.value
    .ok ⟨v, r.rest, by have := r.shorter; simp only [List.length_cons]; omega⟩
  | .function f :: _ => .error (.parenMissing f)
  | .operator _ :: rest | .rightParen :: rest => .error (.operandExpected (total - (rest.length + 1)))

/-- A factor, with a minus before it if that is allowed. -/
def operand (total : Nat) (group : Reader) (allowMinus : Bool) : Reader
  | .operator .subtract :: rest =>
    if allowMinus then do
      let r ← factor total group rest
      .ok ⟨-r.value, r.rest, by have := r.shorter; simp only [List.length_cons]; omega⟩
    else factor total group (.operator .subtract :: rest)
  | tokens => factor total group tokens

/-- The rest of a product that has come to `value`. -/
def products (total : Nat) (group : Reader) (value : Float) (tokens : List Token) :
    Except EvaluationError (Reading (tokens.length + 1)) :=
  match tokens with
  | .operator .multiply :: rest => do
    let r ← operand total group true rest
    let p ← products total group (value * r.value) r.rest
    .ok ⟨p.value, p.rest, by
      have := r.shorter; have := p.shorter; simp only [List.length_cons]; omega⟩
  | .operator .divide :: rest => do
    let r ← operand total group true rest
    let q ← quotient value r.value
    let p ← products total group q r.rest
    .ok ⟨p.value, p.rest, by
      have := r.shorter; have := p.shorter; simp only [List.length_cons]; omega⟩
  | tokens => .ok ⟨value, tokens, by omega⟩
termination_by tokens.length
decreasing_by all_goals have := r.shorter; simp only [List.length_cons]; omega

def product (total : Nat) (group : Reader) (allowMinus : Bool) : Reader := fun tokens => do
  let r ← operand total group allowMinus tokens
  let p ← products total group r.value r.rest
  .ok ⟨p.value, p.rest, by have := r.shorter; have := p.shorter; omega⟩

/-- The rest of a sum that has come to `value`. A product that is taken away may not begin with a minus. -/
def sums (total : Nat) (group : Reader) (value : Float) (tokens : List Token) :
    Except EvaluationError (Reading (tokens.length + 1)) :=
  match tokens with
  | .operator .add :: rest => do
    let r ← product total group true rest
    let s ← sums total group (value + r.value) r.rest
    .ok ⟨s.value, s.rest, by
      have := r.shorter; have := s.shorter; simp only [List.length_cons]; omega⟩
  | .operator .subtract :: rest => do
    let r ← product total group false rest
    let s ← sums total group (value - r.value) r.rest
    .ok ⟨s.value, s.rest, by
      have := r.shorter; have := s.shorter; simp only [List.length_cons]; omega⟩
  | tokens => .ok ⟨value, tokens, by omega⟩
termination_by tokens.length
decreasing_by all_goals have := r.shorter; simp only [List.length_cons]; omega

def sum (total : Nat) (group : Reader) : Reader := fun tokens => do
  let r ← product total group true tokens
  let s ← sums total group r.value r.rest
  .ok ⟨s.value, s.rest, by have := r.shorter; have := s.shorter; omega⟩

/-- What stands after an opening parenthesis, up to the parenthesis that closes it, when `room` levels of
nesting are left. -/
def group (total : Nat) : (room : Nat) → Reader
  | 0 => fun _ => .error .tooDeep
  | room + 1 => fun
    | .rightParen :: _ => .error .emptyParens
    | tokens => do
      let r ← sum total (group total room) tokens
      match h : r.rest with
      | .rightParen :: rest => .ok ⟨r.value, rest, by
          have := r.shorter; rw [h, List.length_cons] at this; omega⟩
      | _ => .error .unclosedParens

end Reader

/-- The value of a whole row of tokens, whether or not it is finite. -/
def evaluateAll (tokens : List Token) : Except EvaluationError Float :=
  if tokens = [] then .error .empty
  else do
    let r ← Reader.sum tokens.length (Reader.group tokens.length maxNesting) tokens
    match r.rest with
    | [] => .ok r.value
    | t :: rest => .error (.unexpected (tokens.length - (rest.length + 1)) t)

/-- The value of a row of tokens, which must be finite. -/
def evaluateTokens (tokens : List Token) : Except EvaluationError Float := do
  let v ← evaluateAll tokens
  if v.isFinite then .ok v else .error (.notFinite v)

def evaluate (text : String) : Except EvaluationError Float :=
  match tokenize text with
  | .error e => .error (.lexical e)
  | .ok tokens => evaluateTokens tokens

/-- A result is displayed positionally, so that its text can be evaluated again. -/
def displayStyle : Style where
  positional _ := true
  wholeEnding := []

/-- The text of a result; adding zero takes the sign from a negative zero. -/
def displayNumber (x : Float) : String :=
  displayStyle.write (x + 0.0)

end TalkingCalculator
