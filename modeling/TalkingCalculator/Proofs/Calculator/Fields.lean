import TalkingCalculator.Proofs.Calculator.Outcome
import TalkingCalculator.Proofs.Calculator.Refusals
import TalkingCalculator.Proofs.Calculator.Texts
import TalkingCalculator.Proofs.Equation.Coefficient

/-!
# Texts that events lead to

Whatever events come, the display shows a text, and a coefficient has only what the keypad types there. A deletion
may leave the stump of a function, but a parenthesis goes before the function that it opens, so that none ever
stands without one.
-/
namespace TalkingCalculator

/-- A text of the keypad whose parentheses all open a function. -/
structure IsField (cs : List Char) : Prop where
  chars : ∀ c ∈ cs, c ∈ fieldChars
  opened : ∀ before after, cs = before ++ '(' :: after → ∃ f : Trig, f.name.toList <:+ before

namespace IsField

variable {cs ds : List Char}

theorem nil : IsField [] := by
  refine ⟨fun c hc => absurd hc List.not_mem_nil, fun before after h => ?_⟩
  exact absurd h.symm (List.append_ne_nil_of_right_ne_nil before (List.cons_ne_nil '(' after))

theorem of_prefix (h : ds <+: cs) (hcs : IsField cs) : IsField ds := by
  obtain ⟨rest, rfl⟩ := h
  refine ⟨fun c hc => hcs.chars c (List.mem_append_left rest hc), fun before after hds => ?_⟩
  exact hcs.opened before (after ++ rest) (by rw [hds, List.append_assoc, List.cons_append])

theorem append (hcs : IsField cs) (hds : IsField ds) : IsField (cs ++ ds) := by
  refine ⟨?_, fun before after h => ?_⟩
  · intro c hc
    rcases List.mem_append.mp hc with hc | hc
    · exact hcs.chars c hc
    · exact hds.chars c hc
  rcases List.append_eq_append_iff.mp h with ⟨middle, rfl, hafter⟩ | ⟨middle, hbefore, hafter⟩
  · obtain ⟨f, hf⟩ := hds.opened middle after hafter
    exact ⟨f, hf.trans (List.suffix_append cs middle)⟩
  · cases middle with
    | nil =>
      obtain ⟨f, hf⟩ := hds.opened [] after hafter.symm
      exact ⟨f, hf.trans List.nil_suffix⟩
    | cons c middle =>
      obtain ⟨rfl, -⟩ := List.cons.inj hafter
      exact hcs.opened before middle hbefore

theorem singleton {c : Char} (hc : c ∈ fieldChars) (hparen : c ≠ '(') : IsField [c] := by
  refine ⟨fun d hd => List.mem_singleton.mp hd ▸ hc, fun before after h => ?_⟩
  have hmem : '(' ∈ [c] := h ▸ List.mem_append_right before List.mem_cons_self
  exact absurd (List.mem_singleton.mp hmem).symm hparen

theorem opening (f : Trig) : IsField f.opening.toList := by
  have hname : '(' ∉ f.name.toList ∧ ∀ c ∈ f.opening.toList, c ∈ fieldChars := by
    cases f <;> exact ⟨by decide, by simp [Trig.opening, Trig.name, fieldChars]⟩
  refine ⟨hname.2, fun before after h => ⟨f, ?_⟩⟩
  rw [Lexeme.opening_toList] at h
  obtain ⟨rfl, -, -⟩ := (List.append_cons_inj_of_notMem hname.1 List.not_mem_nil).mp h
  exact List.suffix_rfl

theorem piece {key : Key} {piece : String} (hpiece : key.piece? = some piece) (hkey : key.isParen = false) :
    IsField piece.toList := by
  cases key with
  | digit d =>
    cases hpiece
    have hdigit : ∀ d : Fin 10, Nat.digitChar d ∈ fieldChars ∧ Nat.digitChar d ≠ '(' := by decide
    rw [toList_digitText]
    exact singleton (hdigit d).1 (hdigit d).2
  | point =>
    cases hpiece
    exact singleton (by decide) (by decide)
  | operator op =>
    cases hpiece
    cases op <;> exact singleton (by decide) (by decide)
  | function f =>
    cases hpiece
    exact opening f
  | openParen => cases hkey
  | closeParen => cases hkey
  | clear | delete | toggleMode | cycleFocus | focus | commit => cases hpiece

theorem retyped {key : Key} {old new : String} (h : Retyped key old new) (hold : IsField old.toList) :
    IsField new.toList := by
  cases h with
  | shortened h => exact hold.of_prefix h
  | extended hpiece hkey =>
    rw [String.toList_append]
    exact hold.append (piece hpiece hkey)

end IsField

theorem Key.piece_ne_empty {key : Key} {piece : String} (h : key.piece? = some piece) : piece ≠ "" := by
  have hpieces : ∀ piece ∈ pieces, piece ≠ "" := by decide
  exact hpieces piece (mem_pieces h)

namespace Calculator

variable {c : Calculator}

theorem text_outcome_ne_empty (c : Calculator) : c.outcome.text ≠ "" := by
  by_cases h : c.Fails
  · rw [outcome_of_fails h]
    cases c.mode <;> decide
  · exact (outcome_of_not_fails h).2.ne_empty

theorem ne_empty_of_redisplayed {key : Key} {text : String} (h : Redisplayed c key text) (hc : c.display ≠ "") :
    text ≠ "" := by
  cases h with
  | kept => exact hc
  | placeholder => decide
  | typed hpiece => exact Key.piece_ne_empty hpiece
  | extended hpiece => simp [hc]
  | shortened hne => exact hne
  | outcome => exact c.text_outcome_ne_empty

structure WellTyped (c : Calculator) : Prop where
  display_ne : c.display ≠ ""
  fields : ∀ slot, IsField (c.coefficients.get slot).toList

theorem wellTyped_fresh : fresh.WellTyped := by
  refine ⟨by decide, fun slot => ?_⟩
  cases slot <;> exact .nil

theorem wellTyped_press (c : Calculator) (key : Key) (h : c.WellTyped) : (c.press key).WellTyped :=
  ⟨ne_empty_of_redisplayed (redisplayed_press key) h.display_ne,
    fun slot => (h.fields slot).retyped (retyped_press key slot)⟩

theorem wellTyped_attendAll (events : List Event) : (fresh.attendAll events).WellTyped :=
  attendAll_keeps wellTyped_press wellTyped_fresh events

/-- Whatever events come, accepted or refused, the display shows a text, and a coefficient has only the characters
of the keypad and no parenthesis but those that open a function. It is therefore read without blanks, minus of a
keyboard or exponent: as the longest literal at its start, which may have a sign, and as zero where there is none. -/
theorem texts_wellFormed (events : List Event) :
    let c := fresh.attendAll events
    c.display ≠ "" ∧ ∀ slot, let text := c.coefficients.get slot
      (∀ ch ∈ text.toList, ch ∈ fieldChars) ∧ ')' ∉ text.toList ∧
      (∀ before after, text.toList = before ++ '(' :: after → ∃ f : Trig, f.name.toList <:+ before) ∧
      (∀ ch ∈ text.toList, Text.isBlank ch = false ∧ ch ≠ '-' ∧ ch ≠ 'e' ∧ ch ≠ 'E') ∧
      ((∃ s, LongestAt SignedLiteral.chars text.toList s ∧ s.Reads (readCoefficient text)) ∨
        (∀ s : SignedLiteral, ¬ s.chars <+: text.toList) ∧ readCoefficient text = 0.0) := by
  intro c
  have hc : c.WellTyped := wellTyped_attendAll events
  refine ⟨hc.display_ne, fun slot => ?_⟩
  obtain ⟨hchars, hopened⟩ := hc.fields slot
  refine ⟨hchars, fun h => ?_, hopened, fun ch h => ?_, readCoefficient_cases hchars⟩
  · exact absurd (hchars ')' h) (by decide)
  · exact forall_fieldChars (p := fun ch => Text.isBlank ch = false ∧ ch ≠ '-' ∧ ch ≠ 'e' ∧ ch ≠ 'E')
      (by decide) ch (hchars ch h)

end Calculator

end TalkingCalculator
