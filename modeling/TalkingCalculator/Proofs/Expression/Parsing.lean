import Mathlib.Logic.Relation
import TalkingCalculator.Proofs.Expression.Readers

/-!
# Parsing step by step

An expression is read with a cursor that goes from token to token and counts the parentheses it is in. The procedures
of the parser call each other; a call that waits for a value is pending, with what it will do with it. Nothing bounds
the steps in advance: that a parsing comes to an end has to be shown. Taking a token moves the cursor even where there
is none left, so it stands behind the end if the tokens ran out.
-/
namespace TalkingCalculator

structure Cursor where
  position : Nat
  depth : Nat

namespace Cursor

def advance (c : Cursor) : Cursor :=
  { c with position := c.position + 1 }

/-- The cursor that stands before `ts`, what is left of the tokens. -/
def before (tokens ts : List Token) (depth : Nat) : Cursor :=
  ⟨tokens.length - ts.length, depth⟩

theorem before_self (tokens : List Token) (depth : Nat) : before tokens tokens depth = ⟨0, depth⟩ := by
  rw [before, Nat.sub_self]

end Cursor

/-- Where the parser stands in a procedure: at its start, or, in a loop, before the next operator. -/
inductive Routine where
  | expression
  | sums (value : Float)
  | term (allowMinus : Bool)
  | products (value : Float)
  | unary (allowMinus : Bool)
  | factor
  | parenthesized

inductive Pending where
  | sums
  | add (value : Float)
  | subtract (value : Float)
  | products
  | multiply (value : Float)
  | divide (value : Float)
  | negate
  | apply (f : Trig)
  | close

inductive Control where
  | run (p : Routine)
  | value (v : Float)

structure Parsing where
  control : Control
  cursor : Cursor
  pending : List Pending

inductive Transition where
  | next (p : Parsing)
  | stop (result : Except EvaluationError Float) (c : Cursor)

namespace Parsing

section Steps

variable (tokens : List Token)

def call (c : Cursor) (ps : List Pending) : Routine → Transition
  | .expression => .next ⟨.run (.term true), c, .sums :: ps⟩
  | .sums v =>
    match tokens[c.position]? with
    | some (.operator .add) => .next ⟨.run (.term true), c.advance, .add v :: ps⟩
    | some (.operator .subtract) => .next ⟨.run (.term false), c.advance, .subtract v :: ps⟩
    | _ => .next ⟨.value v, c, ps⟩
  | .term allowMinus => .next ⟨.run (.unary allowMinus), c, .products :: ps⟩
  | .products v =>
    match tokens[c.position]? with
    | some (.operator .multiply) => .next ⟨.run (.unary true), c.advance, .multiply v :: ps⟩
    | some (.operator .divide) => .next ⟨.run (.unary true), c.advance, .divide v :: ps⟩
    | _ => .next ⟨.value v, c, ps⟩
  | .unary allowMinus =>
    if allowMinus = true ∧ tokens[c.position]? = some (.operator .subtract) then
      .next ⟨.run .factor, c.advance, .negate :: ps⟩
    else .next ⟨.run .factor, c, ps⟩
  | .factor =>
    match tokens[c.position]? with
    | some (.number v) => .next ⟨.value v, c.advance, ps⟩
    | some .leftParen => .next ⟨.run .parenthesized, c.advance, ps⟩
    | some (.function f) =>
      if tokens[c.advance.position]? = some .leftParen then
        .next ⟨.run .parenthesized, c.advance.advance, .apply f :: ps⟩
      else .stop (.error (.parenMissing f)) c.advance.advance
    | none => .stop (.error .operandMissing) c.advance
    | some _ => .stop (.error (.operandExpected (c.advance.position - 1))) c.advance
  | .parenthesized =>
    if maxNesting ≤ c.depth then .stop (.error .tooDeep) c
    else if tokens[c.position]? = some .rightParen then .stop (.error .emptyParens) c
    else .next ⟨.run .expression, { c with depth := c.depth + 1 }, .close :: ps⟩

/-- A step of the call that has waited for a value. If none has, nothing may be left of the tokens. -/
def resume (c : Cursor) (v : Float) : List Pending → Transition
  | [] =>
    match tokens[c.position]? with
    | some t => .stop (.error (.unexpected c.position t)) c
    | none => .stop (.ok v) c
  | .sums :: ps => .next ⟨.run (.sums v), c, ps⟩
  | .add w :: ps => .next ⟨.run (.sums (w + v)), c, ps⟩
  | .subtract w :: ps => .next ⟨.run (.sums (w - v)), c, ps⟩
  | .products :: ps => .next ⟨.run (.products v), c, ps⟩
  | .multiply w :: ps => .next ⟨.run (.products (w * v)), c, ps⟩
  | .divide w :: ps =>
    match quotient w v with
    | .ok q => .next ⟨.run (.products q), c, ps⟩
    | .error e => .stop (.error e) c
  | .negate :: ps => .next ⟨.value (-v), c, ps⟩
  | .apply f :: ps =>
    match f.apply v with
    | .ok w => .next ⟨.value w, c, ps⟩
    | .error e => .stop (.error e) c
  | .close :: ps =>
    let left : Cursor := { c with depth := c.depth - 1 }
    if tokens[left.position]? = some .rightParen then .next ⟨.value v, left.advance, ps⟩
    else .stop (.error .unclosedParens) left.advance

def step (p : Parsing) : Transition :=
  match p.control with
  | .run routine => call tokens p.cursor p.pending routine
  | .value v => resume tokens p.cursor v p.pending

def run : Nat → Parsing → Option (Except EvaluationError Float × Cursor)
  | 0, _ => none
  | n + 1, p =>
    match step tokens p with
    | .next q => run n q
    | .stop result c => some (result, c)

def parse (n : Nat) : Option (Except EvaluationError Float × Cursor) :=
  if tokens = [] then some (.error .empty, ⟨0, 0⟩) else run tokens n ⟨.run .expression, ⟨0, 0⟩, []⟩

end Steps

section Before

variable {tokens ts : List Token} {t : Token} (d : Nat) (ps : List Pending)

theorem token_before (h : ts <:+ tokens) : tokens[(Cursor.before tokens ts d).position]? = ts.head? := by
  obtain ⟨us, rfl⟩ := h
  rw [Cursor.before, List.length_append, Nat.add_sub_cancel, List.getElem?_append_right (Nat.le_refl _),
    Nat.sub_self, List.head?_eq_getElem?]

theorem advance_before (h : t :: ts <:+ tokens) :
    (Cursor.before tokens (t :: ts) d).advance = .before tokens ts d := by
  have hlength := h.length_le
  have hposition : tokens.length - (t :: ts).length + 1 = tokens.length - ts.length := by
    simp only [List.length_cons] at hlength ⊢
    omega
  rw [Cursor.advance, Cursor.before, hposition, Cursor.before]

theorem tail_suffix (h : t :: ts <:+ tokens) : ts <:+ tokens :=
  (List.suffix_cons t ts).trans h

theorem step_factor_nil : step tokens ⟨.run .factor, .before tokens [] d, ps⟩ =
    .stop (.error .operandMissing) (Cursor.before tokens [] d).advance := by
  simp [step, call, token_before d List.nil_suffix]

theorem step_factor_number {v : Float} (h : .number v :: ts <:+ tokens) :
    step tokens ⟨.run .factor, .before tokens (.number v :: ts) d, ps⟩ =
      .next ⟨.value v, .before tokens ts d, ps⟩ := by
  simp [step, call, token_before d h, advance_before d h]

theorem step_factor_leftParen (h : .leftParen :: ts <:+ tokens) :
    step tokens ⟨.run .factor, .before tokens (.leftParen :: ts) d, ps⟩ =
      .next ⟨.run .parenthesized, .before tokens ts d, ps⟩ := by
  simp [step, call, token_before d h, advance_before d h]

theorem step_factor_call {f : Trig} (h : .function f :: .leftParen :: ts <:+ tokens) :
    step tokens ⟨.run .factor, .before tokens (.function f :: .leftParen :: ts) d, ps⟩ =
      .next ⟨.run .parenthesized, .before tokens ts d, .apply f :: ps⟩ := by
  have h' := tail_suffix h
  simp [step, call, token_before d h, advance_before d h, token_before d h', advance_before d h']

theorem step_factor_function {f : Trig} (h : .function f :: ts <:+ tokens) (hne : ts.head? ≠ some .leftParen) :
    step tokens ⟨.run .factor, .before tokens (.function f :: ts) d, ps⟩ =
      .stop (.error (.parenMissing f)) (Cursor.before tokens ts d).advance := by
  simp [step, call, token_before d h, advance_before d h, token_before d (tail_suffix h), hne]

theorem step_factor_operator {op : Operator} (h : .operator op :: ts <:+ tokens) :
    step tokens ⟨.run .factor, .before tokens (.operator op :: ts) d, ps⟩ =
      .stop (.error (.operandExpected (tokens.length - (ts.length + 1)))) (.before tokens ts d) := by
  simp only [step, call, token_before d h, advance_before d h, List.head?_cons]
  rfl

theorem step_factor_rightParen (h : .rightParen :: ts <:+ tokens) :
    step tokens ⟨.run .factor, .before tokens (.rightParen :: ts) d, ps⟩ =
      .stop (.error (.operandExpected (tokens.length - (ts.length + 1)))) (.before tokens ts d) := by
  simp only [step, call, token_before d h, advance_before d h, List.head?_cons]
  rfl

theorem step_unary_minus (h : .operator .subtract :: ts <:+ tokens) :
    step tokens ⟨.run (.unary true), .before tokens (.operator .subtract :: ts) d, ps⟩ =
      .next ⟨.run .factor, .before tokens ts d, .negate :: ps⟩ := by
  simp [step, call, token_before d h, advance_before d h]

theorem step_unary_of_ne (h : ts <:+ tokens) {allowMinus : Bool}
    (hne : allowMinus = true → ts.head? ≠ some (.operator .subtract)) :
    step tokens ⟨.run (.unary allowMinus), .before tokens ts d, ps⟩ =
      .next ⟨.run .factor, .before tokens ts d, ps⟩ := by
  have hminus : ¬ (allowMinus = true ∧ ts.head? = some (.operator .subtract)) := fun hm => hne hm.1 hm.2
  simp [step, call, token_before d h, hminus]

theorem step_products_multiply (v : Float) (h : .operator .multiply :: ts <:+ tokens) :
    step tokens ⟨.run (.products v), .before tokens (.operator .multiply :: ts) d, ps⟩ =
      .next ⟨.run (.unary true), .before tokens ts d, .multiply v :: ps⟩ := by
  simp [step, call, token_before d h, advance_before d h]

theorem step_products_divide (v : Float) (h : .operator .divide :: ts <:+ tokens) :
    step tokens ⟨.run (.products v), .before tokens (.operator .divide :: ts) d, ps⟩ =
      .next ⟨.run (.unary true), .before tokens ts d, .divide v :: ps⟩ := by
  simp [step, call, token_before d h, advance_before d h]

theorem step_products_end (v : Float) (h : ts <:+ tokens) (hm : ts.head? ≠ some (.operator .multiply))
    (hd : ts.head? ≠ some (.operator .divide)) :
    step tokens ⟨.run (.products v), .before tokens ts d, ps⟩ = .next ⟨.value v, .before tokens ts d, ps⟩ := by
  simp only [step, call, token_before d h]

theorem step_sums_add (v : Float) (h : .operator .add :: ts <:+ tokens) :
    step tokens ⟨.run (.sums v), .before tokens (.operator .add :: ts) d, ps⟩ =
      .next ⟨.run (.term true), .before tokens ts d, .add v :: ps⟩ := by
  simp [step, call, token_before d h, advance_before d h]

theorem step_sums_subtract (v : Float) (h : .operator .subtract :: ts <:+ tokens) :
    step tokens ⟨.run (.sums v), .before tokens (.operator .subtract :: ts) d, ps⟩ =
      .next ⟨.run (.term false), .before tokens ts d, .subtract v :: ps⟩ := by
  simp [step, call, token_before d h, advance_before d h]

theorem step_sums_end (v : Float) (h : ts <:+ tokens) (ha : ts.head? ≠ some (.operator .add))
    (hs : ts.head? ≠ some (.operator .subtract)) :
    step tokens ⟨.run (.sums v), .before tokens ts d, ps⟩ = .next ⟨.value v, .before tokens ts d, ps⟩ := by
  simp only [step, call, token_before d h]

theorem step_parenthesized_tooDeep (hd : maxNesting ≤ d) :
    step tokens ⟨.run .parenthesized, .before tokens ts d, ps⟩ =
      .stop (.error .tooDeep) (.before tokens ts d) :=
  if_pos hd

theorem step_parenthesized_rightParen (h : .rightParen :: ts <:+ tokens) (hd : d < maxNesting) :
    step tokens ⟨.run .parenthesized, .before tokens (.rightParen :: ts) d, ps⟩ =
      .stop (.error .emptyParens) (.before tokens (.rightParen :: ts) d) :=
  (if_neg (Nat.not_le_of_lt hd)).trans (if_pos (token_before d h))

theorem step_parenthesized_of_ne (h : ts <:+ tokens) (hd : d < maxNesting) (hne : ts.head? ≠ some .rightParen) :
    step tokens ⟨.run .parenthesized, .before tokens ts d, ps⟩ =
      .next ⟨.run .expression, .before tokens ts (d + 1), .close :: ps⟩ := by
  rw [← token_before d h] at hne
  exact (if_neg (Nat.not_le_of_lt hd)).trans (if_neg hne)

theorem step_close_rightParen (v : Float) (h : .rightParen :: ts <:+ tokens) :
    step tokens ⟨.value v, .before tokens (.rightParen :: ts) (d + 1), .close :: ps⟩ =
      .next ⟨.value v, .before tokens ts d, ps⟩ := by
  rw [← advance_before d h]
  exact if_pos (token_before d h)

theorem step_close_of_ne (v : Float) (h : ts <:+ tokens) (hne : ts.head? ≠ some .rightParen) :
    step tokens ⟨.value v, .before tokens ts (d + 1), .close :: ps⟩ =
      .stop (.error .unclosedParens) (Cursor.before tokens ts d).advance := by
  rw [← token_before d h] at hne
  exact if_neg hne

theorem step_apply (f : Trig) (v : Float) (c : Cursor) : step tokens ⟨.value v, c, .apply f :: ps⟩ =
    match f.apply v with
    | .ok w => .next ⟨.value w, c, ps⟩
    | .error e => .stop (.error e) c := rfl

theorem step_value_nil (v : Float) : step tokens ⟨.value v, .before tokens [] d, []⟩ =
    .stop (.ok v) (.before tokens [] d) := by
  simp [step, resume, token_before d List.nil_suffix]

theorem step_value_cons (v : Float) (h : t :: ts <:+ tokens) :
    step tokens ⟨.value v, .before tokens (t :: ts) d, []⟩ =
      .stop (.error (.unexpected (tokens.length - (ts.length + 1)) t)) (.before tokens (t :: ts) d) := by
  simp only [step, resume, token_before d h, List.head?_cons]
  rfl

end Before

section Runs

variable {tokens : List Token} {p q : Parsing} {result : Except EvaluationError Float} {c : Cursor}

def Reaches (tokens : List Token) : Parsing → Parsing → Prop :=
  Relation.ReflTransGen fun p q => step tokens p = .next q

def Stops (tokens : List Token) (p : Parsing) (result : Except EvaluationError Float) (c : Cursor) : Prop :=
  ∃ q, Reaches tokens p q ∧ step tokens q = .stop result c

theorem Reaches.stops (h : Reaches tokens p q) (hq : Stops tokens q result c) : Stops tokens p result c := by
  obtain ⟨r, hr, hstop⟩ := hq
  exact ⟨r, h.trans hr, hstop⟩

theorem run_of_next {n : Nat} (h : step tokens p = .next q) : run tokens (n + 1) p = run tokens n q := by
  simp only [run, h]

theorem run_of_stop {n : Nat} (h : step tokens p = .stop result c) : run tokens (n + 1) p = some (result, c) := by
  simp only [run, h]

/-- A parsing that comes to an end does so in some number of steps, and more of them change nothing. -/
theorem Stops.run (h : Stops tokens p result c) : ∃ n, ∀ m, n ≤ m → run tokens m p = some (result, c) := by
  obtain ⟨q, hreach, hstop⟩ := h
  induction hreach using Relation.ReflTransGen.head_induction_on with
  | refl =>
    refine ⟨1, fun m hm => ?_⟩
    obtain ⟨m, rfl⟩ := Nat.exists_eq_add_of_le' hm
    rw [run_of_stop hstop]
  | head hstep _ ih =>
    obtain ⟨n, hn⟩ := ih
    refine ⟨n + 1, fun m hm => ?_⟩
    obtain ⟨m, rfl⟩ := Nat.exists_eq_add_of_le' hm
    rw [← Nat.add_assoc, run_of_next hstep]
    exact hn _ (Nat.le_add_left n m)

end Runs

end Parsing

end TalkingCalculator
