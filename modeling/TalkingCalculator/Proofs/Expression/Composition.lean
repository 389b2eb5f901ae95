import TalkingCalculator.Proofs.Binary.Signs
import TalkingCalculator.Proofs.Expression.Evaluation
import TalkingCalculator.Proofs.Expression.Nesting

/-!
# Composition

Two expressions in parentheses with an operator between them are an expression, and so is one in parentheses, also
after the name of a function. The lexemes of the parts are those of the whole, since no literal goes on with a
parenthesis, and the derivation of the whole has those of the parts in it. Its value is made of theirs.
-/
namespace TalkingCalculator

def finiteResult (x : Float) : Except EvaluationError Float :=
  if x.isFinite then .ok x else .error (.notFinite x)

namespace Operator

def spellings : List (Char × Operator) :=
  [('+', add), ('−', subtract), ('-', subtract), ('×', multiply), ('*', multiply), ('÷', divide), ('/', divide)]

theorem ofChar?_of_mem_spellings : ∀ p ∈ spellings, ofChar? p.1 = some p.2 := by
  decide

def value : Operator → Float → Float → Float
  | add, x, y => x + y
  | subtract, x, y => x - y
  | multiply, x, y => x * y
  | divide, x, y => x / y

def result (op : Operator) (x y : Float) : Except EvaluationError Float :=
  if op = .divide ∧ (y == 0.0) = true then .error .divisionByZero else finiteResult (op.value x y)

end Operator

namespace Grammar

def Factor.alone (f : Factor) : Sum :=
  .mk (.mk (.plain f) .nil) .nil

def Operand.alone (o : Operand true) : Sum :=
  .mk (.mk o .nil) .nil

def Factor.combine (f : Factor) (op : Operator) (g : Factor) : Sum :=
  match op with
  | .add => .mk (.mk (.plain f) .nil) (.add (.mk (.plain g) .nil) .nil)
  | .subtract => .mk (.mk (.plain f) .nil) (.subtract (.mk (.plain g) .nil) .nil)
  | .multiply => .mk (.mk (.plain f) (.multiply (.plain g) .nil)) .nil
  | .divide => .mk (.mk (.plain f) (.divide (.plain g) .nil)) .nil

/-- The expression of a factor after an operand and an operator. A minus at its start belongs to the operand alone. -/
def Operand.combine (o : Operand true) (op : Operator) (g : Factor) : Sum :=
  match op with
  | .add => .mk (.mk o .nil) (.add (.mk (.plain g) .nil) .nil)
  | .subtract => .mk (.mk o .nil) (.subtract (.mk (.plain g) .nil) .nil)
  | .multiply => .mk (.mk o (.multiply (.plain g) .nil)) .nil
  | .divide => .mk (.mk o (.divide (.plain g) .nil)) .nil

variable {f g : Factor} {o : Operand true} {op : Operator} {v w : Float}

theorem Operand.tokens_alone : o.alone.tokens = o.tokens := by
  simp [alone, Sum.tokens, Product.tokens, Addends.tokens, Multipliers.tokens]

theorem Operand.depth_alone : o.alone.depth = o.depth := by
  simp [alone, Sum.depth, Product.depth, Addends.depth, Multipliers.depth]

theorem Operand.value_alone : o.alone.value = o.value := by
  simp only [alone, Sum.value, Product.value, Addends.value, Multipliers.value]
  cases o.value <;> rfl

theorem Factor.alone_eq : f.alone = (Operand.plain f).alone := rfl

theorem Factor.tokens_alone : f.alone.tokens = f.tokens := by
  rw [alone_eq, Operand.tokens_alone, Operand.tokens]

theorem Factor.depth_alone : f.alone.depth = f.depth := by
  rw [alone_eq, Operand.depth_alone, Operand.depth]

theorem Factor.value_alone : f.alone.value = f.value := by
  rw [alone_eq, Operand.value_alone, Operand.value]

theorem Operand.tokens_combine : (o.combine op g).tokens = o.tokens ++ .operator op :: g.tokens := by
  cases op <;>
    simp [combine, Sum.tokens, Product.tokens, Operand.tokens, Addends.tokens, Multipliers.tokens]

theorem Operand.depth_combine : (o.combine op g).depth = max o.depth g.depth := by
  cases op <;>
    simp [combine, Sum.depth, Product.depth, Operand.depth, Addends.depth, Multipliers.depth]

theorem Operand.result_combine (ho : o.value = .ok v) (hg : g.value = .ok w) :
    (o.combine op g).value >>= finiteResult = op.result v w := by
  cases op <;>
    simp only [combine, Sum.value, Product.value, Operand.value, Addends.value, Multipliers.value, ho, hg]
  case divide =>
    change ((quotient v w >>= .ok) >>= .ok) >>= finiteResult = _
    unfold quotient Operator.result
    cases w == 0.0 <;> rfl
  all_goals rfl

theorem Factor.combine_eq : f.combine op g = (Operand.plain f).combine op g := by
  cases op <;> rfl

theorem Factor.tokens_combine : (f.combine op g).tokens = f.tokens ++ .operator op :: g.tokens := by
  rw [combine_eq, Operand.tokens_combine, Operand.tokens]

theorem Factor.depth_combine : (f.combine op g).depth = max f.depth g.depth := by
  rw [combine_eq, Operand.depth_combine, Operand.depth]

theorem Factor.result_combine (hf : f.value = .ok v) (hg : g.value = .ok w) :
    (f.combine op g).value >>= finiteResult = op.result v w := by
  rw [combine_eq]
  exact Operand.result_combine hf hg

end Grammar

open Grammar

theorem evaluateTokens_tokens {s : Sum} (hs : s.depth ≤ maxNesting) :
    evaluateTokens s.tokens = s.value >>= finiteResult := by
  rw [evaluateTokens, evaluateAll_tokens s hs]
  rfl

theorem exists_sum_of_evaluateTokens {ts : List Token} {v : Float} (h : evaluateTokens ts = .ok v) :
    ∃ s : Sum, s.depth ≤ maxNesting ∧ s.tokens = ts := by
  obtain ⟨w, hall, -⟩ := bind_eq_ok.mp h
  exact exists_sum_of_evaluateAll hall

theorem evaluate_of_lexed {text : String} (s : Sum) (h : Lexed [] text.toList s.tokens) (hs : s.depth ≤ maxNesting) :
    evaluate text = s.value >>= finiteResult := by
  unfold evaluate
  rw [(tokenize_eq_ok_iff text s.tokens).mpr h]
  exact evaluateTokens_tokens hs

/-- A text with a value is that of an expression, and its value is finite. -/
theorem exists_sum_of_evaluate {text : String} {v : Float} (h : evaluate text = .ok v) :
    ∃ s : Sum, Lexed [] text.toList s.tokens ∧ s.value = .ok v ∧ v.isFinite = true := by
  unfold evaluate at h
  cases htokens : tokenize text with
  | error e =>
    rw [htokens] at h
    cases h
  | ok ts =>
    rw [htokens] at h
    obtain ⟨w, hall, hfinite⟩ := bind_eq_ok.mp (show evaluateTokens ts = .ok v from h)
    obtain ⟨s, hs, rfl⟩ := exists_sum_of_evaluateAll hall
    rw [evaluateAll_tokens s hs] at hall
    split_ifs at hfinite with hw
    cases hfinite
    exact ⟨s, (tokenize_eq_ok_iff text s.tokens).mp htokens, hall, hw⟩

theorem runEnds_rightParen (cs : List Char) : RunEnds (')' :: cs) :=
  runEnds_cons (by decide) cs

theorem runEnds_glyph (op : Operator) (cs : List Char) : RunEnds (op.glyph :: cs) :=
  runEnds_cons (Lexeme.not_runChar_of_operator (Operator.ofChar?_glyph op)) cs

namespace Lexed

variable {text : List Char} {s : Sum}

/-- A text is read in the same way before anything that does not go on with its last literal. -/
theorem before {ts : List Token} (h : Lexed [] text ts) {rest : List Char} (hrest : RunEnds rest) :
    Lexed rest (text ++ rest) ts := by
  obtain ⟨w, rfl, hresume⟩ := h.resume
  rw [List.append_nil]
  exact hresume rest fun _ => hrest

/-- A text is read in the same way before the parenthesis that closes it. -/
theorem closed (h : Lexed [] text s.tokens) (rest : List Char) :
    Lexed rest (text ++ ')' :: rest) (s.tokens ++ [.rightParen]) :=
  (h.before (runEnds_rightParen rest)).trans (.rightParen .done)

theorem paren (h : Lexed [] text s.tokens) (rest : List Char) :
    Lexed rest ('(' :: (text ++ ')' :: rest)) (Factor.paren s).tokens :=
  .leftParen (h.closed rest)

theorem call (f : Trig) (h : Lexed [] text s.tokens) (rest : List Char) :
    Lexed rest (f.opening.toList ++ (text ++ ')' :: rest)) (Factor.call f s).tokens :=
  .function f (h.closed rest)

end Lexed

theorem evaluate_parens {text : String} {s : Sum} (h : Lexed [] text.toList s.tokens) (hs : s.depth < maxNesting) :
    evaluate ("(" ++ text ++ ")") = s.value >>= finiteResult := by
  rw [evaluate_of_lexed (Factor.paren s).alone, Factor.value_alone, Factor.value]
  · rw [Factor.tokens_alone]
    simpa using h.paren []
  · rw [Factor.depth_alone]
    exact hs

theorem evaluate_call {text : String} {s : Sum} (f : Trig) (h : Lexed [] text.toList s.tokens)
    (hs : s.depth < maxNesting) :
    evaluate (f.name ++ "(" ++ text ++ ")") = (s.value >>= f.apply) >>= finiteResult := by
  rw [evaluate_of_lexed (Factor.call f s).alone, Factor.value_alone, Factor.value]
  · rw [Factor.tokens_alone]
    simpa [Trig.opening] using h.call f []
  · rw [Factor.depth_alone]
    exact hs

theorem evaluate_operator {text text' : String} {s t : Sum} {v w : Float} {c : Char} {op : Operator}
    (h : Lexed [] text.toList s.tokens) (hs : s.depth < maxNesting) (hv : s.value = .ok v)
    (h' : Lexed [] text'.toList t.tokens) (ht : t.depth < maxNesting) (hw : t.value = .ok w)
    (hop : Operator.ofChar? c = some op) :
    evaluate ("(" ++ text ++ ")" ++ c.toString ++ "(" ++ text' ++ ")") = op.result v w := by
  have hparen : (Factor.paren s).value = .ok v := hv
  have hparen' : (Factor.paren t).value = .ok w := hw
  rw [evaluate_of_lexed ((Factor.paren s).combine op (.paren t)), Factor.result_combine hparen hparen']
  · rw [Factor.tokens_combine]
    simpa [Char.toString] using (h.paren _).trans (.operator hop (h'.paren []))
  · rw [Factor.depth_combine]
    exact max_le hs ht

/-- The value at a finite double is finite. That of the sine, the cosine and the tangent is, but how they are computed
is not looked into here. -/
def Trig.KeepsFinite (f : Trig) : Prop :=
  ∀ x : Float, x.isFinite = true → (f.value x).isFinite = true

/-- An expression that is made of others in parentheses has the value that is made of theirs. The sine, the cosine and
the tangent of a finite value are taken as they come, and are the value of the expression if they are finite too. -/
theorem evaluate_compositional {s : String} {v : Float} (hs : evaluate s = .ok v) (hsn : nesting s ≤ 99) :
    evaluate ("(" ++ s ++ ")") = .ok v ∧
      (∀ f : Trig, evaluate (f.name ++ "(" ++ s ++ ")") = finiteResult (f.value v) ∧
        (f.KeepsFinite → evaluate (f.name ++ "(" ++ s ++ ")") = .ok (f.value v))) ∧
      ∀ t w c op, evaluate t = .ok w → nesting t ≤ 99 → (c, op) ∈ Operator.spellings →
        evaluate ("(" ++ s ++ ")" ++ c.toString ++ "(" ++ t ++ ")") = op.result v w := by
  obtain ⟨S, hS, hv, hfinite⟩ := exists_sum_of_evaluate hs
  rw [nesting_eq_depth S hS] at hsn
  have hSn : S.depth < maxNesting := Nat.lt_succ_of_le hsn
  refine ⟨?_, fun f => ?_, fun t w c op ht htn hop => ?_⟩
  · rw [evaluate_parens hS hSn, hv]
    exact if_pos hfinite
  · have hcall : evaluate (f.name ++ "(" ++ s ++ ")") = finiteResult (f.value v) := by
      rw [evaluate_call f hS hSn, hv]
      change f.apply v >>= finiteResult = _
      rw [Trig.apply, Binary.isInf_of_isFinite hfinite]
      rfl
    exact ⟨hcall, fun hf => hcall.trans (if_pos (hf v hfinite))⟩
  · obtain ⟨T, hT, hw, -⟩ := exists_sum_of_evaluate ht
    rw [nesting_eq_depth T hT] at htn
    exact evaluate_operator hS hSn hv hT (Nat.lt_succ_of_le htn) hw (Operator.ofChar?_of_mem_spellings _ hop)

theorem evaluate_compositional_third :
    evaluate "1/3" = .ok (1.0 / 3.0) ∧ evaluate "2−(1)" = .ok 1.0 ∧ nesting "1/3" ≤ 99 ∧ nesting "2−(1)" ≤ 99 ∧
      evaluate ("(" ++ "1/3" ++ ")" ++ '-'.toString ++ "(" ++ "2−(1)" ++ ")") = .ok (1.0 / 3.0 - 1.0) := by
  have hs : evaluate "1/3" = .ok (1.0 / 3.0) := by decide +kernel
  have ht : evaluate "2−(1)" = .ok 1.0 := by decide +kernel
  have hsn : nesting "1/3" ≤ 99 := by decide +kernel
  have htn : nesting "2−(1)" ≤ 99 := by decide +kernel
  have hresult : Operator.subtract.result (1.0 / 3.0) 1.0 = .ok (1.0 / 3.0 - 1.0) := by decide +kernel
  refine ⟨hs, ht, hsn, htn, ?_⟩
  rw [(evaluate_compositional hs hsn).2.2 _ _ _ .subtract ht htn (by decide), hresult]

end TalkingCalculator
