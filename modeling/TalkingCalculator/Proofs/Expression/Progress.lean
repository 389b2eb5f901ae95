import TalkingCalculator.Proofs.Expression.Viability

/-!
# Progress of a parsing

Every step of a parsing takes a token or brings a call nearer to its end, so a parsing ends after steps in proportion
to its tokens.
-/
namespace TalkingCalculator

inductive Phrase where
  | expression
  | term
  | operand
  | factor
deriving DecidableEq

namespace Routine

/-- What a routine still has to do counts more than what it calls and leaves pending. -/
def weight : Routine → Nat
  | factor => 0
  | sums _ | products _ | unary _ => 1
  | term _ => 4
  | expression => 7
  | parenthesized => 9

end Routine

namespace Pending

def takes : Pending → Phrase
  | close => .expression
  | sums | add _ | subtract _ => .term
  | products | multiply _ | divide _ => .operand
  | negate | apply _ => .factor

/-- A call that goes on in a loop has to leave it. -/
def weight (f : Pending) : Nat :=
  match f.takes with
  | .term | .operand => 2
  | .expression | .factor => 1

end Pending

namespace Control

def weight : Control → Nat
  | run r => r.weight
  | value _ => 0

end Control

namespace Parsing

inductive Moves (tokens : List Token) : Parsing → Parsing → Prop
  | expression {c ps} : Moves tokens ⟨.run .expression, c, ps⟩ ⟨.run (.term true), c, .sums :: ps⟩
  | sum {v c ps b} {f : Pending} (ht : c.position < tokens.length) (hf : f.takes = .term) :
    Moves tokens ⟨.run (.sums v), c, ps⟩ ⟨.run (.term b), c.advance, f :: ps⟩
  | sumsEnd {v c ps} : Moves tokens ⟨.run (.sums v), c, ps⟩ ⟨.value v, c, ps⟩
  | term {b c ps} : Moves tokens ⟨.run (.term b), c, ps⟩ ⟨.run (.unary b), c, .products :: ps⟩
  | product {v c ps b} {f : Pending} (ht : c.position < tokens.length) (hf : f.takes = .operand) :
    Moves tokens ⟨.run (.products v), c, ps⟩ ⟨.run (.unary b), c.advance, f :: ps⟩
  | productsEnd {v c ps} : Moves tokens ⟨.run (.products v), c, ps⟩ ⟨.value v, c, ps⟩
  | minus {b c ps} (ht : c.position < tokens.length) :
    Moves tokens ⟨.run (.unary b), c, ps⟩ ⟨.run .factor, c.advance, .negate :: ps⟩
  | plain {b c ps} : Moves tokens ⟨.run (.unary b), c, ps⟩ ⟨.run .factor, c, ps⟩
  | number {v c ps} (ht : c.position < tokens.length) :
    Moves tokens ⟨.run .factor, c, ps⟩ ⟨.value v, c.advance, ps⟩
  | paren {c ps} (ht : c.position < tokens.length) :
    Moves tokens ⟨.run .factor, c, ps⟩ ⟨.run .parenthesized, c.advance, ps⟩
  | function {f c ps} (ht : c.position + 1 < tokens.length) :
    Moves tokens ⟨.run .factor, c, ps⟩ ⟨.run .parenthesized, c.advance.advance, .apply f :: ps⟩
  | inside {c ps} (hd : c.depth < maxNesting) :
    Moves tokens ⟨.run .parenthesized, c, ps⟩ ⟨.run .expression, { c with depth := c.depth + 1 }, .close :: ps⟩
  | added {v w c ps} {f : Pending} (hf : f.takes = .term) :
    Moves tokens ⟨.value v, c, f :: ps⟩ ⟨.run (.sums w), c, ps⟩
  | multiplied {v w c ps} {f : Pending} (hf : f.takes = .operand) :
    Moves tokens ⟨.value v, c, f :: ps⟩ ⟨.run (.products w), c, ps⟩
  | changed {v w c ps} {f : Pending} (hf : f.takes = .factor) :
    Moves tokens ⟨.value v, c, f :: ps⟩ ⟨.value w, c, ps⟩
  | closed {v c ps} (ht : c.position < tokens.length) :
    Moves tokens ⟨.value v, c, .close :: ps⟩ ⟨.value v, Cursor.advance { c with depth := c.depth - 1 }, ps⟩

variable {tokens : List Token} {p q : Parsing}

theorem lt_length_of_getElem? {n : Nat} {t : Token} (h : tokens[n]? = some t) : n < tokens.length :=
  (List.getElem?_eq_some_iff.mp h).1

theorem moves_call {c : Cursor} {ps : List Pending} {r : Routine} (h : call tokens c ps r = .next q) :
    Moves tokens ⟨.run r, c, ps⟩ q := by
  cases r with
  | expression =>
    cases h
    exact .expression
  | sums v =>
    simp only [call] at h
    split at h <;> cases h
    · rename_i ht
      exact .sum (lt_length_of_getElem? ht) rfl
    · rename_i ht
      exact .sum (lt_length_of_getElem? ht) rfl
    · exact .sumsEnd
  | term allowMinus =>
    cases h
    exact .term
  | products v =>
    simp only [call] at h
    split at h <;> cases h
    · rename_i ht
      exact .product (lt_length_of_getElem? ht) rfl
    · rename_i ht
      exact .product (lt_length_of_getElem? ht) rfl
    · exact .productsEnd
  | unary allowMinus =>
    simp only [call] at h
    split at h <;> cases h
    · rename_i hminus
      exact .minus (lt_length_of_getElem? hminus.2)
    · exact .plain
  | factor =>
    simp only [call] at h
    split at h
    · rename_i ht
      cases h
      exact .number (lt_length_of_getElem? ht)
    · rename_i ht
      cases h
      exact .paren (lt_length_of_getElem? ht)
    · split at h <;> cases h
      rename_i hparen
      exact .function (lt_length_of_getElem? hparen)
    · cases h
    · cases h
  | parenthesized =>
    simp only [call] at h
    split at h
    · cases h
    · rename_i hdeep
      split at h <;> cases h
      exact .inside (Nat.lt_of_not_le hdeep)

theorem moves_resume {c : Cursor} {v : Float} {ps : List Pending} (h : resume tokens c v ps = .next q) :
    Moves tokens ⟨.value v, c, ps⟩ q := by
  cases ps with
  | nil =>
    simp only [resume] at h
    split at h <;> cases h
  | cons f ps =>
    cases f with
    | sums | add w | subtract w =>
      cases h
      exact .added rfl
    | products | multiply w =>
      cases h
      exact .multiplied rfl
    | divide w =>
      simp only [resume] at h
      split at h <;> cases h
      exact .multiplied rfl
    | negate =>
      cases h
      exact .changed rfl
    | apply f =>
      simp only [resume] at h
      split at h <;> cases h
      exact .changed rfl
    | close =>
      simp only [resume] at h
      split at h <;> cases h
      rename_i ht
      exact .closed (lt_length_of_getElem? ht)

/-- All that a step does if it goes on. -/
theorem moves_of_step (h : step tokens p = .next q) : Moves tokens p q := by
  obtain ⟨control, c, ps⟩ := p
  cases control with
  | run r => exact moves_call h
  | value v => exact moves_resume h

/-- The tokens that are left pay for the calls that they start. -/
def measure (tokens : List Token) (p : Parsing) : Nat :=
  10 * (tokens.length - p.cursor.position) + p.control.weight +
    p.pending.foldr (fun f rest => f.weight + rest) 0

theorem measure_lt (h : Moves tokens p q) : measure tokens q < measure tokens p := by
  cases h with
  | sum ht hf | product ht hf =>
    simp only [measure, Control.weight, Routine.weight, Pending.weight, hf, Cursor.advance, List.foldr_cons]
    omega
  | added hf | multiplied hf | changed hf =>
    simp only [measure, Control.weight, Routine.weight, Pending.weight, hf, List.foldr_cons]
    omega
  | _ =>
    simp only [measure, Control.weight, Routine.weight, Pending.weight, Pending.takes, Cursor.advance, List.foldr_cons]
    omega

theorem exists_run {n : Nat} (h : measure tokens p < n) : ∃ result c, run tokens n p = some (result, c) := by
  induction n generalizing p with
  | zero => omega
  | succ n ih =>
    cases hstep : step tokens p with
    | stop result c => exact ⟨result, c, run_of_stop hstep⟩
    | next q =>
      have hlt := measure_lt (moves_of_step hstep)
      rw [run_of_next hstep]
      exact ih (by omega)

theorem run_mono {m n : Nat} {result : Except EvaluationError Float × Cursor} (hmn : m ≤ n)
    (h : run tokens m p = some result) : run tokens n p = some result := by
  induction m generalizing n p with
  | zero => cases h
  | succ m ih =>
    obtain ⟨n, rfl⟩ := Nat.exists_eq_add_of_le' hmn
    cases hstep : step tokens p with
    | stop x c =>
      rw [run_of_stop hstep] at h
      rw [← Nat.add_assoc, run_of_stop hstep, h]
    | next q =>
      rw [run_of_next hstep] at h
      rw [← Nat.add_assoc, run_of_next hstep]
      exact ih (Nat.le_add_left m n) h

/-- Parsing ends after steps in proportion to the tokens. -/
theorem exists_parse_linear (tokens : List Token) :
    ∃ c, ∀ n, 10 * tokens.length + 8 ≤ n → parse tokens n = some (evaluateAll tokens, c) := by
  by_cases hne : tokens = []
  · subst hne
    exact ⟨⟨0, 0⟩, fun _ _ => rfl⟩
  obtain ⟨m, c, hparse, -⟩ := exists_parse tokens
  refine ⟨c, fun n hn => ?_⟩
  have hmeasure : measure tokens ⟨.run .expression, ⟨0, 0⟩, []⟩ < n := by
    simp only [measure, Control.weight, Routine.weight, List.foldr_nil]
    omega
  obtain ⟨result, c', hrun⟩ := exists_run hmeasure
  have hboth := hparse (max m n) (Nat.le_max_left m n)
  rw [parse, if_neg hne, run_mono (Nat.le_max_right m n) hrun] at hboth
  rw [parse, if_neg hne, hrun, hboth]

end Parsing

end TalkingCalculator
