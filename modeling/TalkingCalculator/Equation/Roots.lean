import TalkingCalculator.Decimal.Fixed
import TalkingCalculator.Equation.Coefficient
import TalkingCalculator.Journal
import TalkingCalculator.Value

/-!
# Roots of a quadratic equation

The equation is `a x² + b x + c = 0`. The sign of the computed discriminant decides the kind of its roots, and
no coefficient, discriminant or root may be infinite or NaN.
-/
namespace TalkingCalculator

inductive Roots where
  | degenerate
  | twoReal (x₁ x₂ : Float)
  | oneReal (x : Float)
  | complex (realPart imaginaryPart : Float)
deriving DecidableEq

inductive SolverError where
  | coefficients (a b c : Float)
  | discriminant (d : Float)
  | roots (a b c : Float)
deriving DecidableEq

def SolverError.message : SolverError → String
  | coefficients a b c => "Coeficientes no finitos: a=" ++ reportStyle.write a ++ ", b=" ++
      reportStyle.write b ++ ", c=" ++ reportStyle.write c
  | discriminant d => "Discriminante no finito: " ++ reportStyle.write d
  | roots a b c => "Raíces no finitas para a=" ++ reportStyle.write a ++ ", b=" ++
      reportStyle.write b ++ ", c=" ++ reportStyle.write c

namespace Roots

def values : Roots → List Float
  | degenerate => []
  | twoReal x₁ x₂ => [x₁, x₂]
  | oneReal x => [x]
  | complex re im => [re, im]

/-- The roots when `d`, the discriminant, is a number. -/
def ofDiscriminant (a b d : Float) : Roots :=
  if 0.0 < d then
    let r := d.sqrt
    twoReal ((-b + r) / (2.0 * a)) ((-b - r) / (2.0 * a))
  else if d == 0.0 then oneReal (-b / (2.0 * a))
  else complex (-b / (2.0 * a)) ((-d).sqrt / (2.0 * a))

end Roots

def discriminant (a b c : Float) : Float :=
  b * b - 4.0 * a * c

def solve (a b c : Float) : Except SolverError Roots :=
  if !(a.isFinite && b.isFinite && c.isFinite) then .error (.coefficients a b c)
  else if a == 0.0 then .ok .degenerate
  else
    let d := discriminant a b c
    if !d.isFinite then .error (.discriminant d)
    else
      let r := Roots.ofDiscriminant a b d
      if r.values.all Float.isFinite then .ok r else .error (.roots a b c)

def solveTexts (a b c : String) : Except SolverError Roots :=
  solve (readCoefficient a) (readCoefficient b) (readCoefficient c)

/-- Roots are displayed with four places, and a negative zero as zero. -/
def displayRoot (x : Float) : String :=
  Fixed.write 4 (x + 0.0)

/-- Shown for an equation that has no square. -/
def degenerateMessage : String := "Not a quadratic equation (a = 0)"

namespace Roots

def display : Roots → String
  | degenerate => degenerateMessage
  | twoReal x₁ x₂ => "x₁ = " ++ displayRoot x₁ ++ ", x₂ = " ++ displayRoot x₂
  | oneReal x => "x = " ++ displayRoot x
  | complex re im => "x₁ = " ++ displayRoot re ++ " + " ++ displayRoot im ++ "i, x₂ = " ++
      displayRoot re ++ " - " ++ displayRoot im ++ "i"

/-- The roots as the journal shows them. -/
def shown : Roots → String
  | degenerate => "Degenerate()"
  | twoReal x₁ x₂ => "TwoRealRoots(x1=" ++ reportStyle.write x₁ ++ ", x2=" ++ reportStyle.write x₂ ++ ")"
  | oneReal x => "OneRealRoot(x=" ++ reportStyle.write x ++ ")"
  | complex re im => "ComplexRoots(real_part=" ++ reportStyle.write re ++ ", imaginary_part=" ++
      reportStyle.write im ++ ")"

end Roots

/-- A value that is no roots was to be displayed. -/
structure NotRoots where
  value : Value

def NotRoots.message (e : NotRoots) : String :=
  "Resultado desconocido: " ++ e.value.shown

/-- Displays a value that a caller gives as roots. -/
def displayResult : Value ⊕ Roots → Except NotRoots String
  | .inl value => .error ⟨value⟩
  | .inr roots => .ok roots.display

/-- An equation that is quadratic and solved leaves a record. -/
def solveRecords (a b c : Float) : List Record :=
  match solve a b c with
  | .error _ | .ok .degenerate => []
  | .ok r =>
    [⟨.equation, .debug, "a=" ++ reportStyle.write a ++ " b=" ++ reportStyle.write b ++ " c=" ++
      reportStyle.write c ++ " discriminante=" ++ reportStyle.write (discriminant a b c) ++ " -> " ++
      r.shown⟩]

end TalkingCalculator
