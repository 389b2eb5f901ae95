import TalkingCalculator.Equation.Coefficient
import TalkingCalculator.Proofs.Decimal.Literal

/-!
# Coefficients from the keypad

The keypad has no blank, no exponent and no minus of a keyboard. Of what it can type, a coefficient is read as the
longest literal at its start, which may have a sign, and a text without one as zero.
-/
namespace TalkingCalculator

def fieldChars : List Char :=
  ['0', '1', '2', '3', '4', '5', '6', '7', '8', '9', '.', '+', '−', '×', '÷', '(', 's', 'i', 'n', 'c', 'o', 't', 'a']

theorem forall_fieldChars {p : Char → Prop} [DecidablePred p] (h : fieldChars.all (p ·) = true) :
    ∀ c ∈ fieldChars, p c :=
  fun c hc => of_decide_eq_true (List.all_eq_true.mp h c hc)

/-- A sign before a number, or none. The keypad and a keyboard differ in the minus. -/
inductive WrittenSign where
  | none
  | plus
  | minus
deriving DecidableEq

def BeginsUnsigned (minus : Char) (cs : List Char) : Prop :=
  ∃ c ∈ cs.head?, c ≠ '+' ∧ c ≠ minus

theorem BeginsUnsigned.append {minus : Char} {cs : List Char} (h : BeginsUnsigned minus cs) (after : List Char) :
    BeginsUnsigned minus (cs ++ after) := by
  obtain ⟨c, hc, hsign⟩ := h
  exact ⟨c, List.mem_head?_append_of_mem_head? hc, hsign⟩

theorem Mantissa.beginsUnsigned {digit : Char → Option ℕ} {minus : Char} (hplus : digit '+' = none)
    (hminus : digit minus = none) (hpoint : minus ≠ '.') (m : Mantissa digit) : BeginsUnsigned minus m.chars := by
  obtain ⟨c, cs, hchars, hc⟩ := m.exists_cons
  have hne {d : Char} (hd : digit d = none) (hpoint : d ≠ '.') : c ≠ d := by
    rintro rfl
    rcases hc with hdigit | h
    · rw [hd] at hdigit
      cases hdigit
    · exact hpoint h
  exact ⟨c, by rw [hchars]; rfl, hne hplus (by decide), hne hminus hpoint⟩

namespace WrittenSign

def chars (minus : Char) : WrittenSign → List Char
  | none => []
  | plus => ['+']
  | .minus => [minus]

def split (minus : Char) : List Char → WrittenSign × List Char
  | [] => (none, [])
  | c :: cs => if c = '+' then (plus, cs) else if c = minus then (.minus, cs) else (none, c :: cs)

/-- The double is the nearest one to `q`, which is not negative, with the sign. -/
def Reads (s : WrittenSign) (q : ℚ) (v : Float) : Prop :=
  ∃ x, IsCorrectlyRounded q x ∧ v = if s = .minus then -x else x

variable {minus : Char} {cs text : List Char}

theorem append_split (minus : Char) (text : List Char) :
    (split minus text).1.chars minus ++ (split minus text).2 = text := by
  cases text with
  | nil => rfl
  | cons c cs =>
    rw [split]
    split_ifs with hplus hminus
    · rw [hplus]
      rfl
    · rw [hminus]
      rfl
    · rfl

theorem split_append (hne : minus ≠ '+') (hcs : BeginsUnsigned minus cs) (s : WrittenSign) :
    split minus (s.chars minus ++ cs) = (s, cs) := by
  cases s with
  | plus => rfl
  | minus => simp [chars, split, hne]
  | none =>
    obtain ⟨c, hc, hplus, hminus⟩ := hcs
    obtain ⟨rest, rfl⟩ := List.head?_eq_some_iff.mp hc
    simp [chars, split, hplus, hminus]

/-- A text begins with a sign and an unsigned text if this is the sign of the text, and what follows it begins so. -/
theorem prefix_iff (hne : minus ≠ '+') (hcs : BeginsUnsigned minus cs) (s : WrittenSign) :
    s.chars minus ++ cs <+: text ↔ s = (split minus text).1 ∧ cs <+: (split minus text).2 := by
  constructor
  · rintro ⟨after, rfl⟩
    rw [List.append_assoc, split_append hne (hcs.append after)]
    exact ⟨rfl, List.prefix_append cs after⟩
  · rintro ⟨hsign, h⟩
    have hprefix := (List.prefix_append_right_inj ((split minus text).1.chars minus)).mpr h
    rwa [append_split, ← hsign] at hprefix

end WrittenSign

structure SignedLiteral where
  sign : WrittenSign
  literal : Literal

namespace SignedLiteral

variable {cs : List Char}

def chars (s : SignedLiteral) : List Char :=
  s.sign.chars '−' ++ s.literal.chars

def Reads (s : SignedLiteral) (v : Float) : Prop :=
  s.sign.Reads s.literal.value v

theorem prefix_iff (s : SignedLiteral) :
    s.chars <+: cs ↔ s.sign = (WrittenSign.split '−' cs).1 ∧ s.literal.chars <+: (WrittenSign.split '−' cs).2 :=
  WrittenSign.prefix_iff (by decide) (s.literal.beginsUnsigned rfl rfl (by decide)) s.sign

/-- The longest literal after the sign of a text makes the longest signed literal. -/
theorem longestAt {l : Literal} (h : LongestAt Mantissa.chars (WrittenSign.split '−' cs).2 l) :
    LongestAt chars cs ⟨(WrittenSign.split '−' cs).1, l⟩ := by
  refine ⟨(prefix_iff _).mpr ⟨rfl, h.leading⟩, fun t ht => ?_⟩
  obtain ⟨hsign, hliteral⟩ := t.prefix_iff.mp ht
  have hlength := h.longest t.literal hliteral
  unfold chars
  rw [hsign, List.length_append, List.length_append]
  exact Nat.add_le_add_left hlength _

end SignedLiteral

namespace Numeral

theorem leadingDigits_congr {f g : Char → Option ℕ} {cs : List Char} (h : ∀ c ∈ cs, f c = g c) :
    leadingDigits f cs = leadingDigits g cs := by
  induction cs with
  | nil => rfl
  | cons c cs ih =>
    obtain ⟨hc, hcs⟩ := List.forall_mem_cons.mp h
    unfold leadingDigits
    rw [hc, ih hcs]

theorem leadingDigits_map (f : Char → Option ℕ) (g : Char → Char) (cs : List Char) :
    leadingDigits f (cs.map g) = leadingDigits (f ∘ g) cs := by
  induction cs with
  | nil => rfl
  | cons c cs ih =>
    rw [List.map_cons, leadingDigits, leadingDigits, ih]
    rfl

theorem leading_map (f : Char → Option ℕ) {g : Char → Char} (hpoint : ∀ c, g c = '.' ↔ c = '.') (cs : List Char) :
    leading f (cs.map g) = leading (f ∘ g) cs := by
  unfold leading
  simp only [leadingDigits_map, ← List.map_drop]
  cases cs.drop (leadingDigits (f ∘ g) cs).length with
  | nil => rfl
  | cons c after =>
    by_cases hc : c = '.'
    · subst hc
      simp only [List.map_cons, (hpoint '.').mpr rfl, leadingDigits_map]
    · have hgc := mt (hpoint c).mp hc
      simp [hc, hgc]

theorem leading_congr {f g : Char → Option ℕ} {cs : List Char} (h : ∀ c ∈ cs, f c = g c) :
    leading f cs = leading g cs := by
  unfold leading
  simp only [leadingDigits_congr h]
  split
  · rename_i after hdrop
    have hafter : ∀ c ∈ after, f c = g c := by
      intro c hc
      refine h c (List.mem_of_mem_drop (i := (leadingDigits g cs).length) ?_)
      rw [hdrop]
      exact List.mem_cons_of_mem '.' hc
    rw [leadingDigits_congr hafter]
  · rfl

end Numeral

namespace Coefficient

def keyboard (c : Char) : Char :=
  if c = '−' then '-' else c

theorem keyboard_eq_point_iff (c : Char) : keyboard c = '.' ↔ c = '.' := by
  unfold keyboard
  split
  · rename_i hc
    subst hc
    decide
  · rfl

theorem not_isBlank_keyboard : ∀ c ∈ fieldChars, Text.isBlank (keyboard c) = false :=
  forall_fieldChars (by decide)

theorem keyboard_ne_exponent : ∀ c ∈ fieldChars, keyboard c ≠ 'e' ∧ keyboard c ≠ 'E' :=
  forall_fieldChars (by decide)

theorem digitValue?_keyboard : ∀ c ∈ fieldChars, Text.digitValue? (keyboard c) = Text.asciiDigitValue? c :=
  forall_fieldChars (by decide)

variable {cs : List Char}

theorem dropWhile_isBlank (hcs : ∀ c ∈ cs, c ∈ fieldChars) :
    (cs.map keyboard).dropWhile Text.isBlank = cs.map keyboard := by
  cases cs with
  | nil => rfl
  | cons c cs =>
    have hc := not_isBlank_keyboard c (hcs c List.mem_cons_self)
    rw [List.map_cons, List.dropWhile_cons_of_neg (by simp [hc])]

theorem sign_keyboard (hcs : '-' ∉ cs) :
    sign (cs.map keyboard) =
      (decide ((WrittenSign.split '−' cs).1 = .minus), (WrittenSign.split '−' cs).2.map keyboard) := by
  cases cs with
  | nil => rfl
  | cons c rest =>
    rw [WrittenSign.split]
    split_ifs with hplus hminus
    · subst hplus
      rfl
    · subst hminus
      rfl
    · have hkeyboard : c ≠ '-' := fun h => hcs (h ▸ List.mem_cons_self)
      rw [List.map_cons, show keyboard c = c from if_neg hminus]
      simp [sign, hplus, hkeyboard]

theorem exponent_eq_zero (hcs : ∀ c ∈ cs.head?, c ≠ 'e' ∧ c ≠ 'E') : exponent cs = 0 := by
  cases cs with
  | nil => rfl
  | cons c cs =>
    obtain ⟨he, hE⟩ := hcs c rfl
    exact if_neg (not_or.mpr ⟨he, hE⟩)

theorem exponent_keyboard (hcs : ∀ c ∈ cs, c ∈ fieldChars) (n : ℕ) : exponent ((cs.map keyboard).drop n) = 0 := by
  refine exponent_eq_zero fun k hk => ?_
  have hmem : k ∈ cs.map keyboard := List.mem_of_mem_drop (List.mem_of_mem_head? hk)
  obtain ⟨c, hc, rfl⟩ := List.mem_map.mp hmem
  exact keyboard_ne_exponent c (hcs c hc)

theorem leading_keyboard (hcs : ∀ c ∈ cs, c ∈ fieldChars) :
    Numeral.leading Text.digitValue? (cs.map keyboard) = Numeral.leading Text.asciiDigitValue? cs := by
  rw [Numeral.leading_map _ keyboard_eq_point_iff]
  exact Numeral.leading_congr fun c hc => digitValue?_keyboard c (hcs c hc)

end Coefficient

open Coefficient in
/-- What the keypad can type is read as the longest signed literal at its start, and without one as zero. -/
theorem readCoefficient_cases {text : String} (htext : ∀ c ∈ text.toList, c ∈ fieldChars) :
    (∃ s, LongestAt SignedLiteral.chars text.toList s ∧ s.Reads (readCoefficient text)) ∨
      (∀ s : SignedLiteral, ¬ s.chars <+: text.toList) ∧ readCoefficient text = 0.0 := by
  have hminus : '-' ∉ text.toList := fun h => absurd (htext '-' h) (by decide)
  have hrest : ∀ c ∈ (WrittenSign.split '−' text.toList).2, c ∈ fieldChars := by
    intro c hc
    refine htext c ?_
    rw [← WrittenSign.append_split '−' text.toList]
    exact List.mem_append_right _ hc
  have hread : readCoefficient text = (leading? (text.toList.map keyboard)).getD 0.0 := by
    rw [← dropWhile_isBlank htext]
    rfl
  unfold leading? at hread
  simp only [sign_keyboard hminus, leading_keyboard hrest, exponent_keyboard hrest] at hread
  rcases Mantissa.longestAt_or_none (rfl : Text.asciiDigitValue? '.' = none) (WrittenSign.split '−' text.toList).2 with
    ⟨l, hl, hnumeral⟩ | ⟨hcount, hnone⟩
  · refine Or.inl ⟨_, SignedLiteral.longestAt hl, ?_⟩
    have hpos := l.digitCount_numeral_pos
    rw [← hnumeral, if_neg hpos.ne'] at hread
    refine ⟨(l.numeral.decimal 0).toFloat, ?_, ?_⟩
    · rw [← l.value_numeral]
      exact Decimal.isCorrectlyRounded_toFloat _
    · rw [hread]
      simp only [Option.getD_some, decide_eq_true_eq]
  · refine Or.inr ⟨fun s hs => hnone s.literal (s.prefix_iff.mp hs).2, ?_⟩
    rw [hread, if_pos hcount]
    rfl

end TalkingCalculator
