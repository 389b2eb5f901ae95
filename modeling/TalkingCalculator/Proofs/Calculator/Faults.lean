import TalkingCalculator.Equation.Roots
import TalkingCalculator.Expression.Evaluation
import TalkingCalculator.Proofs.Binary.Comparison

/-!
# Faults

Some operations have no result for some arguments: no number is written without digits, no item stands beyond the
end of a row, nothing is divided by zero, no negative number has a square root, and no infinite angle has a sine.
Here these operations fail where they have no result. Every use of them is guarded, so that no failure is left: it
is told as an error of the expression, or the arguments rule it out.
-/
namespace TalkingCalculator

inductive Fault where
  | noDigits
  | noItem
  | zeroDivisor
  | negativeRoot
  | infiniteAngle
deriving DecidableEq, Repr

theorem Numeral.width_pos (n : Numeral) (h : 0 < n.digitCount) : 0 < n.width :=
  Nat.lt_of_lt_of_le h (Nat.le_add_right _ _)

namespace Faulting

def convert (n : Numeral) (exponent : Int) : Except Fault Float :=
  if n.digitCount = 0 then .error .noDigits else .ok (n.decimal exponent).toFloat

def item {α : Type} (items : List α) (position : Nat) : Except Fault α :=
  match items[position]? with
  | some x => .ok x
  | none => .error .noItem

def divide (x y : Float) : Except Fault Float :=
  if y == 0.0 then .error .zeroDivisor else .ok (x / y)

def root (x : Float) : Except Fault Float :=
  if x < 0.0 then .error .negativeRoot else .ok x.sqrt

def angle (f : Trig) (x : Float) : Except Fault Float :=
  if x.isInf then .error .infiniteAngle else .ok (f.value x)

/-- The item at a position, where readers look at the start of the row from there on. -/
def peek {α : Type} (items : List α) (position : Nat) : Except Fault (Option α) :=
  if position < items.length then do
    let x ← item items position
    .ok (some x)
  else .ok none

def number (position : Nat) (cs : List Char) : Except Fault (Except LexicalError Lexeme) :=
  let n := Numeral.leading Text.asciiDigitValue? cs
  if n.point && (cs.drop n.width).head? == some '.' then .ok (.error (.secondPoint (position + n.width)))
  else if h : 0 < n.digitCount then do
    let v ← convert n 0
    .ok (.ok ⟨[.number v], n.width, n.width_pos h⟩)
  else .ok (.error (.noDigits position))

def leading (cs : List Char) : Except Fault (Option Float) :=
  let (negative, cs) := Coefficient.sign cs
  let n := Numeral.leading Text.digitValue? cs
  if n.digitCount = 0 then .ok none
  else do
    let x ← convert n (Coefficient.exponent (cs.drop n.width))
    .ok (some (if negative then -x else x))

def quotient (x y : Float) : Except Fault (Except EvaluationError Float) :=
  if y == 0.0 then .ok (.error .divisionByZero)
  else do
    let q ← divide x y
    .ok (.ok q)

def apply (f : Trig) (x : Float) : Except EvaluationError Float :=
  match angle f x with
  | .ok v => .ok v
  | .error _ => .error (.undefined f x)

def ofDiscriminant (a b d : Float) : Except Fault Roots :=
  if 0.0 < d then do
    let r ← root d
    let x₁ ← divide (-b + r) (2.0 * a)
    let x₂ ← divide (-b - r) (2.0 * a)
    .ok (.twoReal x₁ x₂)
  else if d == 0.0 then do
    let x ← divide (-b) (2.0 * a)
    .ok (.oneReal x)
  else do
    let re ← divide (-b) (2.0 * a)
    let r ← root (-d)
    let im ← divide r (2.0 * a)
    .ok (.complex re im)

def solve (a b c : Float) : Except Fault (Except SolverError Roots) :=
  if !(a.isFinite && b.isFinite && c.isFinite) then .ok (.error (.coefficients a b c))
  else if a == 0.0 then .ok (.ok .degenerate)
  else
    let d := discriminant a b c
    if !d.isFinite then .ok (.error (.discriminant d))
    else do
      let r ← ofDiscriminant a b d
      .ok (if r.values.all Float.isFinite then .ok r else .error (.roots a b c))

theorem convert_eq {n : Numeral} (h : n.digitCount ≠ 0) (exponent : Int) :
    convert n exponent = .ok (n.decimal exponent).toFloat :=
  if_neg h

theorem divide_eq {y : Float} (h : (y == 0.0) = false) (x : Float) : divide x y = .ok (x / y) := by
  rw [divide, h]
  rfl

theorem root_eq {x : Float} (h : ¬ x < 0.0) : root x = .ok x.sqrt :=
  if_neg h

theorem peek_eq {α : Type} (items : List α) (position : Nat) :
    peek items position = .ok (items.drop position).head? := by
  unfold peek item
  rw [List.head?_drop]
  split
  · rename_i hposition
    rw [List.getElem?_eq_getElem hposition]
    rfl
  · rename_i hposition
    rw [List.getElem?_eq_none (Nat.le_of_not_lt hposition)]

theorem number_eq (position : Nat) (cs : List Char) : number position cs = .ok (Lexeme.number position cs) := by
  unfold number Lexeme.number
  extract_lets n
  split
  · rfl
  · split
    · rename_i hdigits
      rw [convert_eq (Nat.pos_iff_ne_zero.mp hdigits)]
      rfl
    · rfl

theorem leading_eq (cs : List Char) : leading cs = .ok (Coefficient.leading? cs) := by
  unfold leading Coefficient.leading?
  obtain ⟨negative, cs'⟩ := Coefficient.sign cs
  by_cases hdigits : (Numeral.leading Text.digitValue? cs').digitCount = 0
  · simp only [if_pos hdigits]
  · simp only [if_neg hdigits, convert_eq hdigits]
    rfl

theorem quotient_eq (x y : Float) : quotient x y = .ok (TalkingCalculator.quotient x y) := by
  unfold quotient TalkingCalculator.quotient
  cases hy : y == 0.0 with
  | false =>
    rw [divide_eq hy]
    rfl
  | true => rfl

theorem apply_eq (f : Trig) (x : Float) : apply f x = f.apply x := by
  unfold apply angle Trig.apply
  cases x.isInf <;> rfl

theorem ofDiscriminant_eq {a d : Float} (hdivisor : (2.0 * a == 0.0) = false) (hd : d.isFinite = true) (b : Float) :
    ofDiscriminant a b d = .ok (Roots.ofDiscriminant a b d) := by
  have hdivide (x : Float) : divide x (2.0 * a) = .ok (x / (2.0 * a)) := divide_eq hdivisor x
  unfold ofDiscriminant Roots.ofDiscriminant
  rcases Binary.sign_cases hd with ⟨hpos, hroot⟩ | ⟨hpos, hzero⟩ | ⟨hpos, hzero, hroot⟩
  · simp only [if_pos hpos, root_eq hroot, hdivide]
    rfl
  · simp only [if_neg hpos, if_pos hzero, hdivide]
    rfl
  · simp only [if_neg hpos, hzero, root_eq hroot, hdivide]
    rfl

theorem solve_eq (a b c : Float) : solve a b c = .ok (TalkingCalculator.solve a b c) := by
  unfold solve TalkingCalculator.solve
  cases hfinite : a.isFinite && b.isFinite && c.isFinite with
  | false => rfl
  | true =>
    have ha : a.isFinite = true := by
      rw [Bool.and_assoc, Bool.and_eq_true] at hfinite
      exact hfinite.1
    cases hzero : a == 0.0 with
    | true => rfl
    | false =>
      cases hd : (discriminant a b c).isFinite with
      | false =>
        simp only [hd]
        rfl
      | true =>
        simp only [hd, ofDiscriminant_eq (Binary.two_mul_beq_zero ha hzero) hd b]
        rfl

end Faulting

end TalkingCalculator
