import TalkingCalculator.Proofs.Calculator.Refusals
import TalkingCalculator.Proofs.Equation.Coefficient
import TalkingCalculator.Proofs.Expression.Display

/-!
# Numbers in both modes

A literal, with a minus before it or not, is the same double as an expression and as a coefficient, though a
coefficient is read by its own rules. A result of one mode may therefore be typed into the other.
-/
namespace TalkingCalculator

theorem RunChar.mem_fieldChars {c : Char} (hc : RunChar c) : c ∈ fieldChars := by
  rcases hc with hdigit | rfl
  · have hdigits : ∀ d : Fin 10, Nat.digitChar d ∈ fieldChars := by decide
    obtain ⟨d, hd⟩ := exists_digitText hdigit
    have hc : [c] = [Nat.digitChar d] := by
      rw [← toList_digitText, hd, Char.toString, String.toList_singleton]
    rw [(List.cons.inj hc).1]
    exact hdigits d
  · decide

theorem Literal.value_eq_of_chars {l l' : Literal} (h : l.chars = l'.chars) : l.value = l'.value := by
  have hnumeral : l.numeral = l'.numeral := by
    rw [← l.leading_chars_append runEnds_nil, h, l'.leading_chars_append runEnds_nil]
  rw [← l.value_numeral, hnumeral, l'.value_numeral]

namespace SignedLiteral

variable {s t : SignedLiteral}

theorem mem_fieldChars (s : SignedLiteral) : ∀ c ∈ s.chars, c ∈ fieldChars := by
  intro c hc
  rcases List.mem_append.mp hc with hsign | hliteral
  · obtain ⟨sign, l⟩ := s
    cases sign with
    | none => cases hsign
    | plus | minus =>
      rw [List.mem_singleton.mp hsign]
      decide
  · exact (s.literal.runChar_of_mem hliteral).mem_fieldChars

/-- The longest signed literal of a text that is one is the whole text. -/
theorem reads_congr (h : LongestAt chars s.chars t) {v : Float} (hv : t.Reads v) : s.Reads v := by
  have hchars : t.chars = s.chars := h.leading.eq_of_length_le (h.longest s List.prefix_rfl)
  have hsign : t.sign = s.sign := (t.prefix_iff.mp h.leading).1.trans (s.prefix_iff.mp List.prefix_rfl).1.symm
  have hliteral : t.literal.chars = s.literal.chars := by
    unfold chars at hchars
    rwa [hsign, List.append_cancel_left_eq] at hchars
  unfold Reads at hv ⊢
  rwa [hsign, Literal.value_eq_of_chars hliteral] at hv

end SignedLiteral

theorem reads_readCoefficient {text : String} (s : SignedLiteral) (htext : text.toList = s.chars) :
    s.Reads (readCoefficient text) := by
  have hchars : ∀ c ∈ text.toList, c ∈ fieldChars := htext ▸ s.mem_fieldChars
  rcases readCoefficient_cases hchars with ⟨t, ht, hreads⟩ | ⟨hnone, -⟩
  · rw [htext] at ht
    exact SignedLiteral.reads_congr ht hreads
  · exact absurd (htext ▸ List.prefix_rfl) (hnone s)

theorem readCoefficient_literal {text : String} (l : Literal) (htext : text.toList = l.chars) :
    readCoefficient text = Binary.nearest .positive l.value := by
  obtain ⟨x, hx, hread⟩ := reads_readCoefficient ⟨.none, l⟩ htext
  rw [hread, Binary.eq_nearest_of_isCorrectlyRounded l.value_nonneg hx]
  rfl

theorem readCoefficient_congr {text text' : String}
    (h : text.toList.map Coefficient.keyboard = text'.toList.map Coefficient.keyboard) :
    readCoefficient text = readCoefficient text' := by
  have hkeyboard : (fun c => if c = '−' then '-' else c) = Coefficient.keyboard := rfl
  unfold readCoefficient
  rw [hkeyboard, h]

/-- Either minus is read. -/
theorem readCoefficient_minus_literal {text : String} {c : Char} (hc : Coefficient.keyboard c = '-') (l : Literal)
    (htext : text.toList = c :: l.chars) : readCoefficient text = -Binary.nearest .positive l.value := by
  have hminus : Coefficient.keyboard '−' = '-' := by decide
  have hkeypad : readCoefficient text = readCoefficient (String.ofList ('−' :: l.chars)) := by
    refine readCoefficient_congr ?_
    rw [htext, String.toList_ofList, List.map_cons, List.map_cons, hc, hminus]
  obtain ⟨x, hx, hread⟩ := reads_readCoefficient ⟨.minus, l⟩ (String.toList_ofList (l := '−' :: l.chars))
  rw [hkeypad, hread, Binary.eq_nearest_of_isCorrectlyRounded l.value_nonneg hx]
  rfl

theorem evaluateAll_number (w : Float) : evaluateAll [.number w] = .ok w :=
  evaluateAll_tokens (Grammar.Operand.plain (.number w)).alone (Nat.zero_le _)

theorem evaluateAll_minus_number (w : Float) : evaluateAll [.operator .subtract, .number w] = .ok (-w) :=
  evaluateAll_tokens (Grammar.Operand.negated (.number w)).alone (Nat.zero_le _)

/-- A text that is read as one number is a literal. -/
theorem exists_literal_of_tokenize {t : String} {w : Float} (h : tokenize t = .ok [.number w]) :
    ∃ l : Literal, t.toList = l.chars ∧ Binary.nearest .positive l.value = w := by
  obtain ⟨l, cs, htext, hw, -, hrest⟩ := ((tokenize_eq_ok_iff t _).mp h).exists_literal
  rw [hrest.eq_of_nil, List.append_nil] at htext
  exact ⟨l, htext, (Binary.eq_nearest_of_isCorrectlyRounded l.value_nonneg hw).symm⟩

structure ReadAlike (text : String) (v : Float) : Prop where
  coefficient : readCoefficient text = v
  expression : ∃ ts, tokenize text = .ok ts ∧ evaluateAll ts = .ok v

theorem readAlike_literal {text : String} (l : Literal) (htext : text.toList = l.chars) :
    ReadAlike text (Binary.nearest .positive l.value) := by
  refine ⟨readCoefficient_literal l htext, _, ?_, evaluateAll_number _⟩
  rw [tokenize_eq_ok_iff, htext]
  exact l.lexed

theorem readAlike_minus_literal {text : String} {c : Char} (hc : Coefficient.keyboard c = '-')
    (hop : Operator.ofChar? c = some .subtract) (l : Literal) (htext : text.toList = c :: l.chars) :
    ReadAlike text (-Binary.nearest .positive l.value) := by
  refine ⟨readCoefficient_minus_literal hc l htext, _, ?_, evaluateAll_minus_number _⟩
  rw [tokenize_eq_ok_iff, htext]
  exact .operator hop l.lexed

/-- A literal without a minus or with either one before it is the same double as a coefficient and as an expression,
finite or not, and so is a displayed result. -/
theorem readAlike_numbers :
    (∀ sign ∈ ["", "−", "-"], ∀ t w, tokenize t = .ok [.number w] →
      ReadAlike (sign ++ t) (if sign = "" then w else -w)) ∧
    ∀ v : Float, v.isFinite = true → ReadAlike (displayNumber v) (if v = -0.0 then 0.0 else v) := by
  refine ⟨fun sign hsign t w ht => ?_, fun v hv => ?_⟩
  · obtain ⟨l, htext, rfl⟩ := exists_literal_of_tokenize ht
    simp only [List.mem_cons, List.not_mem_nil, or_false] at hsign
    rcases hsign with rfl | rfl | rfl
    · exact readAlike_literal l ((congrArg String.toList String.empty_append).trans htext)
    · exact readAlike_minus_literal (c := '−') (by decide) rfl l (by simp [htext])
    · exact readAlike_minus_literal (c := '-') (by decide) rfl l (by simp [htext])
  · rw [← add_zero_eq hv]
    obtain ⟨d, ⟨htext, hvalue⟩ | ⟨htext, hvalue⟩⟩ := displayNumber_cases hv
    · rw [← hvalue]
      exact readAlike_literal d.literal htext
    · rw [← hvalue]
      exact readAlike_minus_literal (by decide) rfl d.literal htext

end TalkingCalculator
