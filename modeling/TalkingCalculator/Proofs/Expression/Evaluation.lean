import TalkingCalculator.Proofs.Expression.Readers

/-!
# Evaluation follows the grammar

A row of tokens that the grammar derives within the nesting allowed is evaluated as its only derivation, and
every other row is refused. As an expression is evaluated while it is read, a row can be refused for an error of
arithmetic before it goes wrong; then the tokens read so far begin an expression, and every expression that
begins with them has this error.
-/

namespace TalkingCalculator

def EvaluationError.isArithmetic : EvaluationError → Bool
  | divisionByZero | undefined .. => true
  | _ => false

def ArithmeticOnly (x : Except EvaluationError Float) : Prop :=
  ∀ e, x = .error e → e.isArithmetic

namespace ArithmeticOnly

theorem ok (v : Float) : ArithmeticOnly (.ok v) := by
  intro e h
  cases h

theorem bind {x : Except EvaluationError Float} (hx : ArithmeticOnly x)
    {k : Float → Except EvaluationError Float} (hk : ∀ v, ArithmeticOnly (k v)) :
    ArithmeticOnly (x >>= k) := by
  intro e h
  cases x with
  | error e' => exact hx e h
  | ok v => exact hk v e h

theorem apply (f : Trig) (x : Float) : ArithmeticOnly (f.apply x) := by
  intro e h
  unfold Trig.apply at h
  split at h <;> cases h
  rfl

theorem quotient (x y : Float) : ArithmeticOnly (quotient x y) := by
  intro e h
  unfold TalkingCalculator.quotient at h
  split at h <;> cases h
  rfl

end ArithmeticOnly

namespace Grammar

mutual

theorem Sum.arithmeticOnly : ∀ s : Sum, ArithmeticOnly s.value
  | .mk p a => by
    rw [Sum.value]
    exact (Product.arithmeticOnly p).bind (Addends.arithmeticOnly a)
termination_by structural s => s

theorem Addends.arithmeticOnly : ∀ (a : Addends) (v : Float), ArithmeticOnly (a.value v)
  | .nil, v => .ok v
  | .add p a, v => by
    rw [Addends.value]
    exact (Product.arithmeticOnly p).bind fun x => Addends.arithmeticOnly a (v + x)
  | .subtract p a, v => by
    rw [Addends.value]
    exact (Product.arithmeticOnly p).bind fun x => Addends.arithmeticOnly a (v - x)
termination_by structural a => a

theorem Product.arithmeticOnly {signed : Bool} : ∀ p : Product signed, ArithmeticOnly p.value
  | .mk o m => by
    rw [Product.value]
    exact (Operand.arithmeticOnly o).bind (Multipliers.arithmeticOnly m)
termination_by structural p => p

theorem Multipliers.arithmeticOnly : ∀ (m : Multipliers) (v : Float), ArithmeticOnly (m.value v)
  | .nil, v => .ok v
  | .multiply o m, v => by
    rw [Multipliers.value]
    exact (Operand.arithmeticOnly o).bind fun x => Multipliers.arithmeticOnly m (v * x)
  | .divide o m, v => by
    rw [Multipliers.value]
    exact (Operand.arithmeticOnly o).bind fun x =>
      (ArithmeticOnly.quotient v x).bind (Multipliers.arithmeticOnly m)
termination_by structural m => m

theorem Operand.arithmeticOnly {signed : Bool} : ∀ o : Operand signed, ArithmeticOnly o.value
  | .plain f => Factor.arithmeticOnly f
  | .negated f => by
    rw [Operand.value]
    exact (Factor.arithmeticOnly f).bind fun v => .ok (-v)
termination_by structural o => o

theorem Factor.arithmeticOnly : ∀ f : Factor, ArithmeticOnly f.value
  | .number v => .ok v
  | .paren s => Sum.arithmeticOnly s
  | .call f s => by
    rw [Factor.value]
    exact (Sum.arithmeticOnly s).bind (.apply f)
termination_by structural f => f

end

end Grammar

open Grammar

/-- The reader of a whole expression. -/
theorem reads_expression : Reads (Sums maxNesting) SumEnds
    fun total ts => unbounded (Reader.sum total (Reader.group total maxNesting) ts) :=
  reads_sum (reads_group maxNesting)

theorem evaluateAll_eq {ts : List Token} (h : ts ≠ []) :
    evaluateAll ts = unbounded (Reader.sum ts.length (Reader.group ts.length maxNesting) ts) >>= fun r =>
      match r.2 with
      | [] => .ok r.1
      | t :: rest => .error (.unexpected (ts.length - (rest.length + 1)) t) := by
  rw [evaluateAll, if_neg h]
  cases Reader.sum ts.length (Reader.group ts.length maxNesting) ts with
  | error e => rfl
  | ok r =>
    obtain ⟨v, rest, hr⟩ := r
    cases rest <;> rfl

theorem Grammar.Sum.tokens_ne_nil (s : Sum) : s.tokens ≠ [] := by
  obtain ⟨⟨o, m⟩, a⟩ := s
  cases o with
  | plain f => cases f <;> simp [Sum.tokens, Product.tokens, Operand.tokens, Factor.tokens]
  | negated f => simp [Sum.tokens, Product.tokens, Operand.tokens]

/-- An expression has its value, and what cannot belong to it is unexpected. -/
theorem evaluateAll_append (s : Sum) (hs : s.depth ≤ maxNesting) {rest : List Token}
    (hrest : SumEnds rest) : evaluateAll (s.tokens ++ rest) = s.value >>= fun v =>
      match rest with
      | [] => .ok v
      | t :: _ => .error (.unexpected s.tokens.length t) := by
  have hne : s.tokens ++ rest ≠ [] := by
    intro h
    exact s.tokens_ne_nil (List.append_eq_nil_iff.mp h).1
  rw [evaluateAll_eq hne, reads_expression.complete _ ⟨s, hs, rfl, rfl⟩ hrest]
  cases s.value with
  | error e => rfl
  | ok v =>
    rcases rest with _ | ⟨t, rest⟩
    · rfl
    · simp [bind, Except.bind, Except.map]

theorem evaluateAll_tokens (s : Sum) (hs : s.depth ≤ maxNesting) :
    evaluateAll s.tokens = s.value := by
  have h := evaluateAll_append s hs sumEnds_nil
  rw [List.append_nil] at h
  rw [h]
  cases s.value <;> rfl

theorem exists_sum_of_evaluateAll {ts : List Token} {v : Float} (h : evaluateAll ts = .ok v) :
    ∃ s : Sum, s.depth ≤ maxNesting ∧ s.tokens = ts := by
  have hne : ts ≠ [] := by
    rintro rfl
    cases h
  rw [evaluateAll_eq hne] at h
  obtain ⟨⟨w, rest⟩, hr, hrest⟩ := bind_eq_ok.mp h
  obtain ⟨us, ⟨s, hd, rfl, -⟩, hts, -⟩ := reads_expression.sound hr
  cases rest with
  | nil => exact ⟨s, hd, by simpa using hts⟩
  | cons t rest => cases hrest

end TalkingCalculator
