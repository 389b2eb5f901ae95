import TalkingCalculator.Calculator.Event

/-!
# Refused events

An event is refused for what was given with it: a digit that is not one digit, an operator, a function or a
coefficient that does not exist, or a value that is no event at all. The focus is looked at in equation mode only.
-/
namespace TalkingCalculator

inductive Refused (mode : Mode) : Event → EventError → Prop
  | digit {value : Value} (h : ∀ c : Char, c.isDigit = true → value.plain ≠ c.toString) :
      Refused mode (.digit value) (.digit value.plain)
  | operator {value : Value} (h : ∀ sign ∈ ["+", "−", "×", "÷"], value ≠ .text sign) :
      Refused mode (.operator (.given value)) (.operator value)
  | function {value : Value} (h : ∀ name ∈ ["sin", "cos", "tan"], value ≠ .text name) :
      Refused mode (.function (.given value)) (.function value)
  | focus {value : Value} (hmode : mode = .equation) (h : ∀ letter ∈ ["a", "b", "c"], value ≠ .text letter) :
      Refused mode (.focus (.given value)) (.slot value)
  | unknown {value : Value} : Refused mode (.unknown value) (.unknown value)

theorem toList_digitText (d : Fin 10) : (digitText d).toList = [Nat.digitChar d] := by
  revert d
  decide

theorem exists_digitText {c : Char} (hc : c.isDigit = true) : ∃ d : Fin 10, digitText d = c.toString := by
  obtain ⟨hlow, hhigh⟩ := Char.isDigit_iff_toNat.mp hc
  have h0 : '0'.toNat = 48 := rfl
  have h9 : '9'.toNat = 57 := rfl
  have hlt : c.toNat - 48 < 10 := by omega
  have hdigit : Nat.digitChar (c.toNat - 48) = c := by
    rw [← Char.toNat_inj, Nat.toNat_digitChar_of_lt_ten hlt]
    omega
  exact ⟨⟨c.toNat - 48, hlt⟩, congrArg Char.toString hdigit⟩

theorem digitText_of_digitOfText? {text : String} {d : Fin 10} (h : digitOfText? text = some d) :
    digitText d = text :=
  eq_of_beq (List.find?_some h :)

theorem digitOfText?_eq_none_iff {text : String} :
    digitOfText? text = none ↔ ∀ c : Char, c.isDigit = true → text ≠ c.toString := by
  constructor
  · rintro h c hc rfl
    obtain ⟨d, hd⟩ := exists_digitText hc
    have := List.find?_eq_none.mp h d (List.mem_finRange d)
    simp [hd] at this
  · intro h
    cases hfound : digitOfText? text with
    | none => rfl
    | some d =>
      refine absurd (digitText_of_digitOfText? hfound).symm (h (Nat.digitChar d) ?_)
      rw [Nat.isDigit_digitChar]
      exact decide_eq_true d.isLt

namespace Choice

variable {α : Type} {all : List α} {name : α → String} {value : Value}

theorem resolve_of_not_text (h : ∀ s, value ≠ .text s) : (given value).resolve all name = .error value := by
  cases value with
  | text s => exact absurd rfl (h s)
  | _ => rfl

theorem resolve_text_eq_error_iff {s : String} {v : Value} :
    (given (.text s)).resolve all name = .error v ↔ v = .text s ∧ s ∉ all.map name := by
  unfold resolve
  dsimp only
  cases hfound : all.find? fun a => name a == s with
  | none =>
    have hnone : s ∉ all.map name := by
      intro hs
      obtain ⟨a, ha, hname⟩ := List.mem_map.mp hs
      exact List.find?_eq_none.mp hfound a ha (beq_iff_eq.mpr hname)
    constructor
    · rintro ⟨⟩
      exact ⟨rfl, hnone⟩
    · rintro ⟨rfl, -⟩
      rfl
  | some a =>
    have hname : name a = s := eq_of_beq (List.find?_some hfound :)
    refine iff_of_false nofun ?_
    rintro ⟨-, hs⟩
    exact hs (hname ▸ List.mem_map_of_mem (List.mem_of_find?_eq_some hfound))

/-- A choice that is given as a value is none if the value is not the text of a name. -/
theorem resolve_eq_error_iff {choice : Choice α} :
    choice.resolve all name = .error value ↔ choice = .given value ∧ ∀ s ∈ all.map name, value ≠ .text s := by
  cases choice with
  | known a => exact iff_of_false nofun nofun
  | given v =>
    by_cases htext : ∃ s, v = .text s
    · obtain ⟨s, rfl⟩ := htext
      rw [resolve_text_eq_error_iff]
      constructor
      · rintro ⟨rfl, hs⟩
        exact ⟨rfl, fun s' hs' heq => hs (by cases heq; exact hs')⟩
      · rintro ⟨⟨⟩, hs⟩
        exact ⟨rfl, fun hmem => hs s hmem rfl⟩
    · rw [resolve_of_not_text fun s hs => htext ⟨s, hs⟩]
      constructor
      · rintro ⟨⟩
        exact ⟨rfl, fun s _ hs => htext ⟨s, hs⟩⟩
      · rintro ⟨⟨⟩, -⟩
        rfl

end Choice

theorem Operator.signs : Operator.all.map (·.glyph.toString) = ["+", "−", "×", "÷"] := by
  decide

namespace Event

variable {mode : Mode} {event : Event} {e : EventError}

theorem key_of_refused (h : Refused mode event e) : event.key mode = .error e := by
  cases h with
  | digit h =>
    dsimp only [key]
    rw [digitOfText?_eq_none_iff.mpr h]
  | @operator value h =>
    have hchoice : (Choice.given value).resolve Operator.all (·.glyph.toString) = .error value := by
      rw [Choice.resolve_eq_error_iff, Operator.signs]
      exact ⟨rfl, h⟩
    dsimp only [key]
    rw [hchoice]
  | @function value h =>
    have hchoice : (Choice.given value).resolve Trig.all Trig.name = .error value :=
      Choice.resolve_eq_error_iff.mpr ⟨rfl, h⟩
    dsimp only [key]
    rw [hchoice]
  | @focus value hmode h =>
    have hchoice : (Choice.given value).resolve Slot.all Slot.letter = .error value :=
      Choice.resolve_eq_error_iff.mpr ⟨rfl, h⟩
    subst hmode
    dsimp only [key]
    rw [hchoice]
  | unknown => rfl

theorem refused_of_key (h : event.key mode = .error e) : Refused mode event e := by
  unfold key at h
  cases event with
  | digit value =>
    dsimp only at h
    split at h
    · cases h
    · rename_i hdigit
      cases h
      exact .digit (digitOfText?_eq_none_iff.mp hdigit)
  | operator choice =>
    dsimp only at h
    split at h
    · cases h
    · rename_i hchoice
      cases h
      obtain ⟨rfl, hsigns⟩ := Choice.resolve_eq_error_iff.mp hchoice
      rw [Operator.signs] at hsigns
      exact .operator hsigns
  | function choice =>
    dsimp only at h
    split at h
    · cases h
    · rename_i hchoice
      cases h
      obtain ⟨rfl, hnames⟩ := Choice.resolve_eq_error_iff.mp hchoice
      exact .function hnames
  | focus choice =>
    dsimp only at h
    split at h
    · cases h
    · split at h
      · cases h
      · rename_i hchoice
        cases h
        obtain ⟨rfl, hletters⟩ := Choice.resolve_eq_error_iff.mp hchoice
        exact .focus rfl hletters
  | unknown value =>
    cases h
    exact .unknown
  | _ => cases h

/-- An event is read as a key, or as one that does nothing in this mode, unless it is refused. -/
theorem key_eq_error_iff : event.key mode = .error e ↔ Refused mode event e :=
  ⟨refused_of_key, key_of_refused⟩

end Event

end TalkingCalculator
