import TalkingCalculator.Proofs.Calculator.Faults
import TalkingCalculator.Proofs.Equation.Discriminant

/-!
# Operations of the solver

The solver divides by nothing but twice the first coefficient, which it never compares with anything. But four times
the coefficient is a factor of the discriminant, which is finite when a quotient is formed, and the coefficient is not
zero then, however small it is. A square root is only taken of a finite number above zero.
-/
namespace TalkingCalculator

open Binary

inductive Operation where
  | quotient (x y : Float)
  | root (x : Float)

/-- An operation that is done for the first coefficient `a` and has a result. -/
def Operation.Safe (a : Float) : Operation → Prop
  | quotient _ y => y = 2.0 * a ∧ y.isFinite = true ∧ (y == 0.0) = false
  | root x => x.isFinite = true ∧ 0.0 < x

namespace Logged

def divide (x y : Float) : StateM (List Operation) Float := do
  modify (· ++ [.quotient x y])
  return x / y

def root (x : Float) : StateM (List Operation) Float := do
  modify (· ++ [.root x])
  return x.sqrt

def ofDiscriminant (a b d : Float) : StateM (List Operation) Roots :=
  if 0.0 < d then do
    let r ← root d
    let x₁ ← divide (-b + r) (2.0 * a)
    let x₂ ← divide (-b - r) (2.0 * a)
    return .twoReal x₁ x₂
  else if d == 0.0 then do
    let x ← divide (-b) (2.0 * a)
    return .oneReal x
  else do
    let re ← divide (-b) (2.0 * a)
    let r ← root (-d)
    let im ← divide r (2.0 * a)
    return .complex re im

/-- The solver, which writes down every quotient and every root before it forms it. -/
def solve (a b c : Float) : StateM (List Operation) (Except SolverError Roots) :=
  if !(a.isFinite && b.isFinite && c.isFinite) then return .error (.coefficients a b c)
  else if a == 0.0 then return .ok .degenerate
  else
    let d := discriminant a b c
    if !d.isFinite then return .error (.discriminant d)
    else do
      let r ← ofDiscriminant a b d
      return if r.values.all Float.isFinite then .ok r else .error (.roots a b c)

/-- The program comes to `x` and adds to the log nothing but operations that are safe for the first coefficient `a`. -/
def Safely (a : Float) {α : Type} (program : StateM (List Operation) α) (x : α) : Prop :=
  ∀ log, ∃ ops, program.run log = (x, log ++ ops) ∧ ∀ op ∈ ops, op.Safe a

variable {a b c d : Float} {α β : Type}

theorem safely_pure (x : α) : Safely a (pure x) x := by
  intro log
  exact ⟨[], by rw [List.append_nil]; rfl, nofun⟩

theorem Safely.bind {program : StateM (List Operation) α} {rest : α → StateM (List Operation) β} {x : α} {y : β}
    (h : Safely a program x) (hrest : Safely a (rest x) y) : Safely a (program >>= rest) y := by
  intro log
  obtain ⟨ops, hrun, hops⟩ := h log
  obtain ⟨ops', hrun', hops'⟩ := hrest (log ++ ops)
  refine ⟨ops ++ ops', ?_, List.forall_mem_append.mpr ⟨hops, hops'⟩⟩
  rw [StateT.run_bind, hrun, ← List.append_assoc]
  exact hrun'

theorem safely_divide {y : Float} (h : Operation.Safe a (.quotient x y)) : Safely a (divide x y) (x / y) := by
  intro log
  exact ⟨[.quotient x y], rfl, List.forall_mem_singleton.mpr h⟩

theorem safely_root {x : Float} (h : Operation.Safe a (.root x)) : Safely a (root x) x.sqrt := by
  intro log
  exact ⟨[.root x], rfl, List.forall_mem_singleton.mpr h⟩

theorem safely_ofDiscriminant (hd : d.isFinite = true) (hfinite : (2.0 * a).isFinite = true)
    (hzero : (2.0 * a == 0.0) = false) (b : Float) :
    Safely a (ofDiscriminant a b d) (Roots.ofDiscriminant a b d) := by
  have hdivide (x : Float) : Safely a (divide x (2.0 * a)) (x / (2.0 * a)) := safely_divide ⟨rfl, hfinite, hzero⟩
  unfold ofDiscriminant Roots.ofDiscriminant
  split_ifs with hpos hd0
  · exact (safely_root ⟨hd, hpos⟩).bind ((hdivide _).bind ((hdivide _).bind (safely_pure _)))
  · exact (hdivide _).bind (safely_pure _)
  · have hroot : Safely a (root (-d)) (-d).sqrt := safely_root ⟨isFinite_neg hd, zero_lt_neg hd hpos hd0⟩
    exact (hdivide _).bind (hroot.bind ((hdivide _).bind (safely_pure _)))

/-- Where the solver forms roots, twice the first coefficient is a finite number other than zero. -/
theorem divisor_of_discriminant (hzero : ¬ (a == 0.0) = true) (ha : a.isFinite = true)
    (hd : (discriminant a b c).isFinite = true) : (2.0 * a).isFinite = true ∧ (2.0 * a == 0.0) = false := by
  obtain ⟨-, hproduct⟩ := isFinite_of_sub hd
  obtain ⟨hfour, -⟩ := isFinite_of_mul hproduct
  exact ⟨isFinite_two_mul ha hfour, two_mul_beq_zero ha (Bool.eq_false_iff.mpr hzero)⟩

theorem safely_solve (a b c : Float) : Safely a (solve a b c) (TalkingCalculator.solve a b c) := by
  unfold solve TalkingCalculator.solve
  extract_lets d
  split
  · exact safely_pure _
  rename_i hcoefficients
  split
  · exact safely_pure _
  rename_i hzero
  split
  · exact safely_pure _
  rename_i hd
  simp only [Bool.not_eq_true, Bool.not_eq_false', Bool.and_eq_true] at hcoefficients hd
  obtain ⟨hfinite, hdivisor⟩ := divisor_of_discriminant hzero hcoefficients.1.1 hd
  exact (safely_ofDiscriminant hd hfinite hdivisor b).bind (safely_pure _)

end Logged

variable {a b c : Float} {r : Roots}

theorem solve_of_beq_zero (h : (a == 0.0) = true) (b c : Float) :
    solve a b c = if a.isFinite = true ∧ b.isFinite = true ∧ c.isFinite = true then .ok .degenerate
      else .error (.coefficients a b c) := by
  unfold solve
  rw [if_pos h]
  cases a.isFinite <;> cases b.isFinite <;> cases c.isFinite <;> rfl

theorem ofDiscriminant_ne_degenerate (a b d : Float) : Roots.ofDiscriminant a b d ≠ .degenerate := by
  unfold Roots.ofDiscriminant
  split_ifs <;> exact nofun

theorem beq_zero_of_degenerate (h : solve a b c = .ok .degenerate) : (a == 0.0) = true := by
  by_contra hzero
  have hsolved := isSolved_of_ok (Bool.eq_false_iff.mpr hzero) h
  exact ofDiscriminant_ne_degenerate _ _ _ hsolved.roots.symm

theorem solve_eq_degenerate_iff (a b c : Float) :
    solve a b c = .ok .degenerate ↔
      (a.isFinite = true ∧ b.isFinite = true ∧ c.isFinite = true) ∧ (a == 0.0) = true := by
  constructor
  · intro h
    have hzero := beq_zero_of_degenerate h
    rw [solve_of_beq_zero hzero] at h
    split at h
    · rename_i hfinite
      exact ⟨hfinite, hzero⟩
    · cases h
  · rintro ⟨hfinite, hzero⟩
    rw [solve_of_beq_zero hzero, if_pos hfinite]

theorem isFinite_of_mem_values (h : solve a b c = .ok r) : ∀ x ∈ r.values, x.isFinite = true := by
  cases hzero : a == 0.0 with
  | false => exact List.all_eq_true.mp (isSolved_of_ok hzero h).finite_roots
  | true =>
    rw [solve_of_beq_zero hzero] at h
    split at h
    · cases h
      exact nofun
    · cases h

/-- The solver fails or comes to finite numbers. It finds no square exactly when the coefficients are finite and the
first is zero. Everything it divides by is twice the first coefficient, a finite number other than zero, and each
square root is that of a finite number above zero, so that no operation is left without a result. -/
theorem solve_total (a b c : Float) :
    ((∃ e, solve a b c = .error e) ∨ ∃ r, solve a b c = .ok r ∧ ∀ x ∈ r.values, x.isFinite = true) ∧
      (solve a b c = .ok .degenerate ↔
        (a.isFinite = true ∧ b.isFinite = true ∧ c.isFinite = true) ∧ (a == 0.0) = true) ∧
      Faulting.solve a b c = .ok (solve a b c) ∧
      ∃ ops, (Logged.solve a b c).run [] = (solve a b c, ops) ∧ ∀ op ∈ ops, op.Safe a := by
  refine ⟨?_, solve_eq_degenerate_iff a b c, Faulting.solve_eq a b c, Logged.safely_solve a b c []⟩
  cases h : solve a b c with
  | error e => exact Or.inl ⟨e, rfl⟩
  | ok r => exact Or.inr ⟨r, rfl, isFinite_of_mem_values h⟩

end TalkingCalculator
