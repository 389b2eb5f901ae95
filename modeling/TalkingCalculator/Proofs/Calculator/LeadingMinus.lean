import TalkingCalculator.Proofs.Binary.Opposites
import TalkingCalculator.Proofs.Calculator.Continuation

/-!
# A minus typed first

A minus that is typed on the placeholder goes after its zero, so that what follows it is taken away from zero and
not made negative. The two expressions are read in the same way after their first product, and they have the same
value, but for the sign of a zero, which the display does not show: a product of opposites is the opposite of the
product, and an operation sees the sign of a zero only in the sign of a zero that it results in.
-/
namespace TalkingCalculator

open Grammar

/-- Two outcomes that a display cannot tell apart: the same value but for the sign of a zero, or any errors. -/
def ShownAlike (x y : Except EvaluationError Float) : Prop :=
  x.toOption.map (· + 0.0) = y.toOption.map (· + 0.0)

namespace ShownAlike

variable {x y : Except EvaluationError Float} {v w : Float}

theorem of_ok (h : v + 0.0 = w + 0.0) : ShownAlike (.ok v) (.ok w) :=
  congrArg some h

theorem of_none (hx : x.toOption = none) (hy : y.toOption = none) : ShownAlike x y := by
  unfold ShownAlike
  rw [hx, hy]

theorem finiteResult (h : v + 0.0 = w + 0.0) : ShownAlike (finiteResult v) (finiteResult w) := by
  have hfinite : v.isFinite = w.isFinite := by rw [← isFinite_add_zero, h, isFinite_add_zero]
  unfold TalkingCalculator.finiteResult
  rw [hfinite]
  split
  · exact of_ok h
  · exact of_none rfl rfl

/-- What goes on in the same way from values that differ in the sign of a zero at most is not told apart after it. -/
theorem bind {k l : Float → Except EvaluationError Float} (h : ShownAlike x y)
    (hkl : ∀ v w, v + 0.0 = w + 0.0 → ShownAlike (k v) (l w)) : ShownAlike (x >>= k) (y >>= l) := by
  cases x with
  | error e =>
    cases y with
    | error e' => exact of_none rfl rfl
    | ok w => cases h
  | ok v =>
    cases y with
    | error e' => cases h
    | ok w => exact hkl v w (Option.some.inj h)

end ShownAlike

namespace Operator

/-- An operation does not tell zeros apart, but for the sign of a zero that it results in. -/
theorem value_add_zero_congr (op : Operator) {v w : Float} (h : v + 0.0 = w + 0.0) (x : Float) :
    op.value v x + 0.0 = op.value w x + 0.0 := by
  have hleft (v : Float) : op.value (v + 0.0) x + 0.0 = op.value v x + 0.0 := by
    cases hv : v.isFinite with
    | true => exact op.value_add_zero_left hv x
    | false => rw [Binary.add_zero_of_not_isFinite hv]
  rw [← hleft v, h, hleft]

end Operator

namespace Grammar

variable {f : Factor} {m : Multipliers} {a : Addends} {ts : List Token}

/-- A product of opposites is the opposite of the product. -/
theorem Multipliers.value_neg : ∀ (v : Float) (m : Multipliers), m.value (-v) = m.value v >>= fun w => .ok (-w)
  | v, .nil => rfl
  | v, .multiply o m => by
    rw [Multipliers.value, Multipliers.value]
    cases o.value with
    | error e => rfl
    | ok x =>
      change m.value (-v * x) = m.value (v * x) >>= _
      rw [Binary.neg_mul, Multipliers.value_neg (v * x) m]
  | v, .divide o m => by
    rw [Multipliers.value, Multipliers.value]
    cases o.value with
    | error e => rfl
    | ok x =>
      change quotient (-v) x >>= m.value = (quotient v x >>= m.value) >>= _
      unfold quotient
      split
      · rfl
      · change m.value (-v / x) = m.value (v / x) >>= _
        rw [Binary.neg_div, Multipliers.value_neg (v / x) m]
termination_by structural _ m => m

/-- A sum goes on in the same way from zeros of either sign. -/
theorem Addends.value_shownAlike : ∀ (a : Addends) {v w : Float}, v + 0.0 = w + 0.0 →
    ShownAlike (a.value v) (a.value w)
  | .nil, _, _, h => .of_ok h
  | .add p a, v, w, h => by
    rw [Addends.value, Addends.value]
    cases p.value with
    | error e => exact .of_none rfl rfl
    | ok x => exact Addends.value_shownAlike a (Operator.add.value_add_zero_congr h x)
  | .subtract p a, v, w, h => by
    rw [Addends.value, Addends.value]
    cases p.value with
    | error e => exact .of_none rfl rfl
    | ok x => exact Addends.value_shownAlike a (Operator.subtract.value_add_zero_congr h x)
termination_by structural a => a

def minusFirst (f : Factor) (m : Multipliers) (a : Addends) : Sum :=
  .mk (.mk (.negated f) m) a

def fromZero (f : Factor) (m : Multipliers) (a : Addends) : Sum :=
  .mk (.mk (.plain (.number 0.0)) .nil) (.subtract (.mk (.plain f) m) a)

theorem tokens_fromZero : (fromZero f m a).tokens = .number 0.0 :: (minusFirst f m a).tokens := by
  simp [fromZero, minusFirst, Sum.tokens, Product.tokens, Operand.tokens, Factor.tokens, Multipliers.tokens,
    Addends.tokens]

theorem depth_fromZero : (fromZero f m a).depth = (minusFirst f m a).depth := by
  simp [fromZero, minusFirst, Sum.depth, Product.depth, Operand.depth, Factor.depth, Multipliers.depth, Addends.depth]

theorem value_fromZero : ShownAlike (fromZero f m a).value (minusFirst f m a).value := by
  simp only [fromZero, minusFirst, Sum.value, Product.value, Operand.value, Factor.value, Addends.value]
  cases f.value with
  | error e => exact .of_none rfl rfl
  | ok v =>
    change ShownAlike (m.value v >>= fun x => a.value (0.0 - x)) (m.value (-v) >>= a.value)
    rw [Multipliers.value_neg]
    cases m.value v with
    | error e => exact .of_none rfl rfl
    | ok x => exact a.value_shownAlike (Binary.zero_sub_add_zero x)

theorem Operand.exists_negated {o : Operand true} {us : List Token} (h : o.tokens ++ us = .operator .subtract :: ts) :
    ∃ f, o = .negated f := by
  cases o with
  | plain f => exact absurd h (f.tokens_ne_operator .subtract us ts)
  | negated f => exact ⟨f, rfl⟩

theorem Operand.exists_number {o : Operand true} {v : Float} {us : List Token}
    (h : o.tokens ++ us = .number v :: ts) : o = .plain (.number v) ∧ us = ts := by
  cases o with
  | plain f =>
    cases f with
    | number w =>
      cases h
      exact ⟨rfl, rfl⟩
    | paren | call => cases h
  | negated f => cases h

/-- A minus at the start belongs to the first factor. -/
theorem exists_minusFirst {s : Sum} (h : s.tokens = .operator .subtract :: ts) : ∃ f m a, s = minusFirst f m a := by
  obtain ⟨⟨o, m⟩, a⟩ := s
  rw [Sum.tokens, Product.tokens, List.append_assoc] at h
  obtain ⟨f, rfl⟩ := Operand.exists_negated h
  exact ⟨f, m, a, rfl⟩

/-- A minus after the first number takes away the product after it, in which no factor has a minus before it at once. -/
theorem exists_fromZero {s : Sum} (h : s.tokens = .number 0.0 :: .operator .subtract :: ts) :
    ∃ f m a, s = fromZero f m a := by
  obtain ⟨⟨o, m⟩, a⟩ := s
  rw [Sum.tokens, Product.tokens, List.append_assoc] at h
  obtain ⟨rfl, hrest⟩ := Operand.exists_number h
  cases m with
  | multiply | divide => cases hrest
  | nil =>
    cases a with
    | nil | add => cases hrest
    | subtract p a =>
      obtain ⟨o, m⟩ := p
      cases o with
      | plain f => exact ⟨f, m, a, rfl⟩

end Grammar

/-- Without a derivation there is no value. -/
theorem toOption_evaluateTokens {ts : List Token} (h : ¬ ∃ s : Sum, s.depth ≤ maxNesting ∧ s.tokens = ts) :
    (evaluateTokens ts).toOption = none := by
  cases heval : evaluateTokens ts with
  | error e => rfl
  | ok v => exact absurd (exists_sum_of_evaluateTokens heval) h

theorem evaluateTokens_fromZero (ts : List Token) :
    ShownAlike (evaluateTokens (.number 0.0 :: .operator .subtract :: ts))
      (evaluateTokens (.operator .subtract :: ts)) := by
  by_cases h : ∃ s : Sum, s.depth ≤ maxNesting ∧ s.tokens = .operator .subtract :: ts
  · obtain ⟨s, hs, htokens⟩ := h
    obtain ⟨f, m, a, rfl⟩ := exists_minusFirst htokens
    have hs' : (fromZero f m a).depth ≤ maxNesting := depth_fromZero.trans_le hs
    rw [← htokens, ← tokens_fromZero, evaluateTokens_tokens hs, evaluateTokens_tokens hs']
    exact value_fromZero.bind fun v w hvw => .finiteResult hvw
  · refine .of_none (toOption_evaluateTokens ?_) (toOption_evaluateTokens h)
    rintro ⟨s, hs, htokens⟩
    obtain ⟨f, m, a, rfl⟩ := exists_fromZero htokens
    rw [tokens_fromZero] at htokens
    exact h ⟨minusFirst f m a, depth_fromZero.symm.trans_le hs, List.tail_eq_of_cons_eq htokens⟩

theorem toOption_map {ε α β : Type} (x : Except ε α) (f : α → β) : (x.map f).toOption = x.toOption.map f := by
  cases x <;> rfl

/-- Where a text stands does not matter for its tokens. -/
theorem toOption_scan (p q : ℕ) (text : List Char) : (Token.scan p text).toOption = (Token.scan q text).toOption := by
  have hscan {p q : ℕ} {ts : List Token} (h : Token.scan p text = .ok ts) : Token.scan q text = .ok ts := by
    rcases Token.scan_cases p text with ⟨us, hus, hlexed⟩ | ⟨e, k, rest, us, hus, -⟩
    · rw [Token.scan_of_lexed hlexed (q := q + text.length) rfl, Token.scan]
      cases h.symm.trans hus
      simp [Except.map]
    · cases h.symm.trans hus
  cases hp : Token.scan p text with
  | ok ts => rw [hscan hp]
  | error e =>
    cases hq : Token.scan q text with
    | ok ts => cases hp.symm.trans (hscan hq)
    | error e' => rfl

theorem toOption_evaluate (text : String) :
    (evaluate text).toOption = (tokenize text).toOption.bind fun ts => (evaluateTokens ts).toOption := by
  unfold evaluate
  cases tokenize text <;> rfl

theorem scan_minus (p : ℕ) (cs : List Char) :
    Token.scan p ('−' :: cs) = (Token.scan (p + 1) cs).map (.operator .subtract :: ·) :=
  Token.scan_char (Lexeme.first_operator p cs rfl)

theorem scan_zero_minus (p : ℕ) (cs : List Char) :
    Token.scan p ('0' :: '−' :: cs) =
      (Token.scan (p + 2) cs).map fun ts => .number 0.0 :: .operator .subtract :: ts := by
  let l : Literal := ⟨['0'], none, forall_isSome_iff.mpr (by simp), by simp, by simp⟩
  have hvalue : Binary.nearest .positive l.value = 0.0 := by decide +kernel
  have hscan := Token.scan_literal (p := p) l (runEnds_glyph .subtract cs)
  rw [hvalue] at hscan
  refine hscan.trans ?_
  rw [show Operator.glyph .subtract = '−' from rfl, scan_minus, Token.map_map]
  rfl

/-- After a zero a minus at the start of a text is evaluated as if it stood there alone. -/
theorem evaluate_fromZero {text : String} {cs : List Char} (h : text.toList = '−' :: cs) :
    ShownAlike (evaluate (placeholder ++ text)) (evaluate text) := by
  have hzero : (placeholder ++ text).toList = '0' :: '−' :: cs := by
    rw [String.toList_append, h]
    rfl
  unfold ShownAlike
  rw [toOption_evaluate, toOption_evaluate, tokenize, tokenize, hzero, h, scan_zero_minus, scan_minus, toOption_map,
    toOption_map, toOption_scan (0 + 2) (0 + 1)]
  cases (Token.scan (0 + 1) cs).toOption with
  | none => rfl
  | some ts => exact evaluateTokens_fromZero ts

namespace Key

variable {key : Key} {piece : String} {keys : List Key}

/-- Only the minus types a text that begins with one. -/
theorem eq_minus_of_piece {cs : List Char} (hpiece : key.piece? = some piece) (hminus : piece.toList = '−' :: cs) :
    key = .operator .subtract := by
  cases key with
  | digit d =>
    cases hpiece
    have hdigit : ∀ d : Fin 10, (digitText d).toList.head? ≠ some '−' := by decide
    exact absurd (congrArg List.head? hminus) (hdigit d)
  | operator op =>
    cases hpiece
    cases op with
    | subtract => rfl
    | add | multiply | divide => cases hminus
  | function f =>
    cases hpiece
    cases f <;> cases hminus
  | point | openParen | closeParen =>
    cases hpiece
    cases hminus
  | clear | delete | toggleMode | cycleFocus | focus | commit => cases hpiece

/-- On the placeholder a minus that is typed first goes after the zero, and all the rest after the minus. -/
theorem shown_of_minus {cs : List Char} (hkeys : ∀ key ∈ keys, key.piece?.isSome)
    (hminus : (typed keys).toList = '−' :: cs) : shown keys = placeholder ++ typed keys := by
  cases keys with
  | nil => cases hminus
  | cons key keys =>
    obtain ⟨piece, hpiece⟩ := Option.isSome_iff_exists.mp (hkeys key List.mem_cons_self)
    rw [typed_cons hpiece] at hminus ⊢
    obtain ⟨c, chars, hchars⟩ := List.exists_cons_of_ne_nil (mt String.toList_eq_nil_iff.mp (piece_ne_empty hpiece))
    have hc : c = '−' := by
      rw [String.toList_append, hchars] at hminus
      exact (List.cons.inj hminus).1
    obtain rfl := eq_minus_of_piece hpiece (hc ▸ hchars)
    rw [shown_cons hpiece nofun, onPlaceholder, if_neg (by decide), String.append_assoc]

end Key

/-- The events are accepted and type the text, one after another. -/
def Event.Types (events : List Event) (text : String) : Prop :=
  ∃ keys, List.Forall₂ StandsFor events keys ∧ (∀ key ∈ keys, key.piece?.isSome) ∧ Key.typed keys = text

namespace Calculator

def told : Except EvaluationError Float → Outcome
  | .ok v => ⟨true, displayNumber v⟩
  | .error _ => ⟨false, expressionFailure⟩

theorem told_of_shownAlike {x y : Except EvaluationError Float} (h : ShownAlike x y) : told x = told y := by
  unfold ShownAlike at h
  cases x with
  | error e =>
    cases y with
    | error e' => rfl
    | ok w => cases h
  | ok v =>
    cases y with
    | error e' => cases h
    | ok w =>
      have hvw : v + 0.0 = w + 0.0 := Option.some.inj h
      unfold told displayNumber
      dsimp only
      rw [hvw]

theorem outcome_expression {c : Calculator} (hmode : c.mode = .expression) : c.outcome = told (evaluate c.display) := by
  cases heval : evaluate c.display with
  | ok v => exact outcome_of_evaluate_ok hmode heval
  | error e => exact outcome_of_evaluate_error hmode heval

/-- A minus typed first means a negative number. A text that begins with a minus, typed on the placeholder of a fresh
calculator, stands after its zero, and a commit tells the value of the text alone, or fails if it has none, and
displays what it tells. -/
theorem handleAll_minus_first {events : List Event} {text : String} (htext : Event.Types events text)
    (hminus : text.toList.head? = some '−') :
    ∃ c c' o, fresh.handleAll events = .ok c ∧ c.display = "0" ++ text ∧
      c.handle .commit = .ok (c', some o) ∧ c'.display = o.text ∧ o = match evaluate text with
        | .ok v => ⟨true, displayNumber v⟩
        | .error _ => ⟨false, "Error"⟩ := by
  obtain ⟨keys, hkeys, hpieces, rfl⟩ := htext
  obtain ⟨cs, hcs⟩ := List.head?_eq_some_iff.mp hminus
  let typed : Calculator := { fresh with display := placeholder ++ Key.typed keys }
  refine ⟨typed, typed.commit, typed.outcome, ?_, rfl, typed.handle_commit, typed.display_commit, ?_⟩
  · rw [handleAll_of_standsFor hkeys, foldl_press_placeholder rfl rfl hpieces, Key.shown_of_minus hpieces hcs]
  · rw [outcome_expression rfl, told_of_shownAlike (evaluate_fromZero hcs)]
    unfold told
    cases evaluate (Key.typed keys) <;> rfl

theorem handleAll_minus_first_product :
    let keys : List Key := [.operator .subtract, .digit 5, .operator .multiply, .digit 2, .operator .subtract, .digit 3]
    Event.Types (keys.map Key.event) "−5×2−3" ∧ "−5×2−3".toList.head? = some '−' ∧
      ∃ c c', fresh.handleAll (keys.map Key.event) = .ok c ∧ c.display = "0−5×2−3" ∧
        c.handle .commit = .ok (c', some ⟨true, "-13"⟩) ∧ c'.display = "-13" := by
  intro keys
  have htext : Event.Types (keys.map Key.event) "−5×2−3" := by
    refine ⟨keys, ?_, by decide, by decide⟩
    rw [List.forall₂_map_left_iff, List.forall₂_same]
    simp only [keys, List.forall_mem_cons]
    exact ⟨fun _ => rfl, fun _ => rfl, fun _ => rfl, fun _ => rfl, fun _ => rfl, fun _ => rfl, nofun⟩
  have hvalue : evaluate "−5×2−3" = .ok (-13.0) := by decide +kernel
  have hdisplay : displayNumber (-13.0) = "-13" := by decide +kernel
  obtain ⟨c, c', o, hc, htyped, hcommit, hshown, ho⟩ := handleAll_minus_first htext rfl
  rw [hvalue] at ho
  dsimp only at ho
  rw [hdisplay] at ho
  subst ho
  exact ⟨htext, rfl, c, c', hc, htyped, hcommit, hshown⟩

end Calculator

end TalkingCalculator
