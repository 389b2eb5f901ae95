import TalkingCalculator.Proofs.Calculator.Faults
import TalkingCalculator.Proofs.Decimal.Mantissa
import TalkingCalculator.Proofs.Equation.Coefficient

/-!
# The number at the start of a text

A coefficient may come from anywhere, with blanks before it, digits of any script, the minus of a keyboard, and an
exponent. The reader takes each part as far as it goes and never goes back, and an exponent without digits it leaves
aside. What it has read then is the longest number that the text begins with.
-/
namespace TalkingCalculator

structure WrittenExponent where
  marker : Char
  sign : WrittenSign
  digits : List Char
  marker_eq : marker = 'e' ∨ marker = 'E'
  all_digits : ∀ c ∈ digits, (Text.digitValue? c).isSome
  nonempty : digits ≠ []

namespace WrittenExponent

def chars (x : WrittenExponent) : List Char :=
  x.marker :: (x.sign.chars '-' ++ x.digits)

def value (x : WrittenExponent) : ℤ :=
  let magnitude : ℕ := Nat.ofDigits 10 (x.digits.map (Numeral.valueOf Text.digitValue?)).reverse
  if x.sign = .minus then -magnitude else magnitude

end WrittenExponent

/-- A number in the notation of programs, with digits of any script. -/
structure WrittenNumber where
  sign : WrittenSign
  mantissa : Mantissa Text.digitValue?
  exponent : Option WrittenExponent

namespace WrittenNumber

def exponentChars (x : Option WrittenExponent) : List Char :=
  x.elim [] WrittenExponent.chars

def exponentValue (x : Option WrittenExponent) : ℤ :=
  x.elim 0 WrittenExponent.value

def chars (n : WrittenNumber) : List Char :=
  n.sign.chars '-' ++ (n.mantissa.chars ++ exponentChars n.exponent)

/-- The number without its sign. -/
def value (n : WrittenNumber) : ℚ :=
  n.mantissa.value * 10 ^ exponentValue n.exponent

def Reads (n : WrittenNumber) (v : Float) : Prop :=
  n.sign.Reads n.value v

end WrittenNumber

theorem digitValue?_point : Text.digitValue? '.' = none := by
  decide

theorem Coefficient.sign_eq (cs : List Char) :
    sign cs = (decide ((WrittenSign.split '-' cs).1 = .minus), (WrittenSign.split '-' cs).2) := by
  cases cs with
  | nil => rfl
  | cons c cs =>
    rw [WrittenSign.split]
    split_ifs with hplus hminus
    · subst hplus
      rfl
    · subst hminus
      rfl
    · simp [sign, hplus, hminus]

theorem Coefficient.sign_append {cs : List Char} (hcs : BeginsUnsigned '-' cs) (s : WrittenSign) :
    sign (s.chars '-' ++ cs) = (decide (s = .minus), cs) := by
  rw [sign_eq, WrittenSign.split_append (by decide) hcs]

namespace WrittenExponent

open Coefficient (exponent)
open Numeral (leadingDigits)

variable {cs rest : List Char}

theorem exponent_cons {c : Char} (hc : c = 'e' ∨ c = 'E') (cs : List Char) :
    exponent (c :: cs) =
      let magnitude := (Decimal.ofDigits (leadingDigits Text.digitValue? (WrittenSign.split '-' cs).2) : ℤ)
      if (WrittenSign.split '-' cs).1 = .minus then -magnitude else magnitude := by
  unfold exponent
  dsimp only
  rw [if_pos hc]
  simp only [Coefficient.sign_eq, decide_eq_true_eq]

theorem beginsUnsigned_digits (x : WrittenExponent) : BeginsUnsigned '-' x.digits := by
  obtain ⟨d, ds, hds⟩ := List.exists_cons_of_ne_nil x.nonempty
  have hd := x.all_digits d (hds ▸ List.mem_cons_self)
  rw [hds]
  refine ⟨d, rfl, ?_, ?_⟩ <;> rintro rfl <;> exact absurd hd (by decide)

theorem exponent_append (x : WrittenExponent) (hrest : ∀ c ∈ rest.head?, Text.digitValue? c = none) :
    exponent (x.chars ++ rest) = x.value := by
  rw [chars, List.cons_append, List.append_assoc, exponent_cons x.marker_eq,
    WrittenSign.split_append (by decide) (x.beginsUnsigned_digits.append rest),
    Numeral.leadingDigits_run x.all_digits hrest, Mantissa.ofDigits_eq]
  rfl

/-- A marker without digits counts for nothing. -/
theorem exponent_of_no_digits {c : Char} (hc : c = 'e' ∨ c = 'E')
    (hrest : ∀ c ∈ (WrittenSign.split '-' cs).2.head?, Text.digitValue? c = none) : exponent (c :: cs) = 0 := by
  have hnone : leadingDigits Text.digitValue? (WrittenSign.split '-' cs).2 = [] :=
    Numeral.leadingDigits_run (List.forall_mem_nil _) hrest
  rw [exponent_cons hc, hnone]
  dsimp only
  split <;> rfl

/-- The digits of an exponent at the start of a text are part of the run of digits there. -/
theorem length_digits_le {c : Char} {ds : List Char} {x : WrittenExponent} (hds : ∀ c ∈ ds, (Text.digitValue? c).isSome)
    (hrest : ∀ c ∈ rest.head?, Text.digitValue? c = none) (hrun : (WrittenSign.split '-' cs).2 = ds ++ rest)
    (h : x.chars <+: c :: cs) : x.sign = (WrittenSign.split '-' cs).1 ∧ x.digits.length ≤ ds.length := by
  obtain ⟨-, htail⟩ := List.cons_prefix_cons.mp h
  obtain ⟨hsign, after, hafter⟩ := (WrittenSign.prefix_iff (by decide) x.beginsUnsigned_digits _).mp htail
  refine ⟨hsign, ?_⟩
  have hlength := Numeral.length_run_le x.all_digits after
  rwa [hafter, hrun, Numeral.leadingDigits_run hds hrest, List.length_map] at hlength

end WrittenExponent

namespace WrittenNumber

variable {cs rest : List Char}

/-- The exponent that is read at the start of a text is the longest one there, or none if there is none. -/
theorem exists_exponent (cs : List Char) :
    ∃ x, exponentChars x <+: cs ∧ Coefficient.exponent cs = exponentValue x ∧
      ∀ x' : WrittenExponent, x'.chars <+: cs → x'.chars.length ≤ (exponentChars x).length := by
  cases cs with
  | nil => exact ⟨none, List.prefix_rfl, rfl, fun x' hx' => absurd (List.prefix_nil.mp hx') (List.cons_ne_nil _ _)⟩
  | cons c cs =>
    by_cases hc : c = 'e' ∨ c = 'E'
    swap
    · refine ⟨none, List.nil_prefix, if_neg hc, fun x' hx' => ?_⟩
      obtain ⟨hmarker, -⟩ := List.cons_prefix_cons.mp hx'
      exact absurd (hmarker ▸ x'.marker_eq) hc
    obtain ⟨ds, rest, hrun, hds, hrest⟩ := Numeral.exists_run Text.digitValue? (WrittenSign.split '-' cs).2
    by_cases hne : ds = []
    · subst hne
      refine ⟨none, List.nil_prefix, WrittenExponent.exponent_of_no_digits hc (hrun ▸ hrest), fun x' hx' => ?_⟩
      have hlength := (WrittenExponent.length_digits_le hds hrest hrun hx').2
      exact absurd (List.length_eq_zero_iff.mp (Nat.le_zero.mp hlength)) x'.nonempty
    · let x : WrittenExponent := ⟨c, (WrittenSign.split '-' cs).1, ds, hc, hds, hne⟩
      have hchars : c :: cs = x.chars ++ rest := by
        rw [WrittenExponent.chars, List.cons_append, List.append_assoc, ← hrun, WrittenSign.append_split]
      refine ⟨some x, ⟨rest, hchars.symm⟩, ?_, fun x' hx' => ?_⟩
      · rw [hchars]
        exact x.exponent_append hrest
      · obtain ⟨hs, hlength⟩ := WrittenExponent.length_digits_le hds hrest hrun hx'
        change x'.chars.length ≤ x.chars.length
        simp only [WrittenExponent.chars, List.length_cons, List.length_append, hs, x]
        omega

def toFloat (n : WrittenNumber) : Float :=
  let x := (n.mantissa.numeral.decimal (exponentValue n.exponent)).toFloat
  if n.sign = .minus then -x else x

theorem reads_toFloat (n : WrittenNumber) : n.Reads n.toFloat := by
  refine ⟨_, ?_, rfl⟩
  unfold value
  rw [← n.mantissa.value_decimal]
  exact Decimal.isCorrectlyRounded_toFloat _

theorem leading?_eq {n : WrittenNumber} (hsign : Coefficient.sign cs = (decide (n.sign = .minus), rest))
    (hmantissa : Numeral.leading Text.digitValue? rest = n.mantissa.numeral)
    (hexponent : Coefficient.exponent (rest.drop n.mantissa.chars.length) = exponentValue n.exponent) :
    Coefficient.leading? cs = some n.toFloat := by
  unfold Coefficient.leading? toFloat
  simp only [hsign, hmantissa, if_neg n.mantissa.digitCount_numeral_pos.ne', n.mantissa.width_numeral, hexponent,
    decide_eq_true_eq]

/-- No mantissa goes on with an exponent. -/
theorem ends_exponent (x : WrittenExponent) (after : List Char) : Mantissa.Ends Text.digitValue? (x.chars ++ after) := by
  intro c hc
  cases hc
  rcases x.marker_eq with h | h <;> rw [h] <;> decide

theorem beginsUnsigned_mantissa (m : Mantissa Text.digitValue?) : BeginsUnsigned '-' m.chars :=
  m.beginsUnsigned (by decide) (by decide) (by decide)

/-- A number is read as itself. -/
theorem leading?_chars (n : WrittenNumber) : Coefficient.leading? n.chars = some n.toFloat := by
  refine leading?_eq (Coefficient.sign_append ((beginsUnsigned_mantissa _).append _) _) ?_ ?_
  · refine n.mantissa.leading_append digitValue?_point ?_
    cases n.exponent with
    | none => exact nofun
    | some x =>
      have hends := ends_exponent x []
      rwa [List.append_nil] at hends
  · rw [List.drop_left]
    cases n.exponent with
    | none => rfl
    | some x =>
      have hvalue : Coefficient.exponent (x.chars ++ []) = x.value := x.exponent_append nofun
      rwa [List.append_nil] at hvalue

/-- Where a longest mantissa stands, no mantissa with an exponent is longer than it with the longest exponent. -/
theorem length_body_le {m m' : Mantissa Text.digitValue?} {x x' : Option WrittenExponent}
    (hm : LongestAt Mantissa.chars (m.chars ++ rest) m) (hnumeral : m.numeral = Numeral.leading Text.digitValue? (m.chars ++ rest))
    (hx : ∀ y : WrittenExponent, y.chars <+: rest → y.chars.length ≤ (exponentChars x).length)
    (h : m'.chars ++ exponentChars x' <+: m.chars ++ rest) :
    (m'.chars ++ exponentChars x').length ≤ (m.chars ++ exponentChars x).length := by
  rw [List.length_append, List.length_append]
  cases x' with
  | none =>
    have hlength := hm.longest m' ((List.prefix_append _ _).trans h)
    exact Nat.le_add_right_of_le hlength
  | some y =>
    -- Before the marker of an exponent every mantissa is as long as it can be.
    obtain ⟨after, hafter⟩ := h
    rw [List.append_assoc] at hafter
    change m'.chars ++ (y.chars ++ after) = m.chars ++ rest at hafter
    have hlength : m'.chars.length = m.chars.length := by
      rw [← m'.width_numeral, ← m.width_numeral, hnumeral, ← hafter,
        m'.leading_append digitValue?_point (ends_exponent y after)]
    obtain ⟨-, hrest⟩ := List.append_inj hafter hlength
    rw [hlength]
    exact Nat.add_le_add_left (hx y ⟨after, hrest⟩) _

theorem prefix_iff (n : WrittenNumber) :
    n.chars <+: cs ↔ n.sign = (WrittenSign.split '-' cs).1 ∧
      n.mantissa.chars ++ exponentChars n.exponent <+: (WrittenSign.split '-' cs).2 :=
  WrittenSign.prefix_iff (by decide) ((beginsUnsigned_mantissa n.mantissa).append _) n.sign

/-- The reader finds the longest number at the start of a text, or none if there is none. -/
theorem longestAt_or_none (cs : List Char) :
    (∃ n, LongestAt chars cs n ∧ Coefficient.leading? cs = some n.toFloat) ∨
      Coefficient.leading? cs = none ∧ ∀ n : WrittenNumber, ¬ n.chars <+: cs := by
  rcases Mantissa.longestAt_or_none digitValue?_point (WrittenSign.split '-' cs).2 with
    ⟨m, hm, hnumeral⟩ | ⟨hcount, hnone⟩
  · obtain ⟨tail, htail⟩ := hm.leading
    rw [← htail] at hm hnumeral
    obtain ⟨x, hx, hvalue, hlongest⟩ := exists_exponent tail
    let n : WrittenNumber := ⟨(WrittenSign.split '-' cs).1, m, x⟩
    refine Or.inl ⟨n, ⟨?_, fun n' hn' => ?_⟩, leading?_eq (Coefficient.sign_eq cs) ?_ ?_⟩
    · refine n.prefix_iff.mpr ⟨rfl, ?_⟩
      rw [← htail]
      exact (List.prefix_append_right_inj _).mpr hx
    · obtain ⟨hsign, hbody⟩ := n'.prefix_iff.mp hn'
      have hlength := length_body_le hm hnumeral hlongest (htail ▸ hbody)
      simp only [chars, hsign, List.length_append, n] at hlength ⊢
      omega
    · rw [← htail, hnumeral]
    · rw [← htail, List.drop_left, hvalue]
  · refine Or.inr ⟨?_, fun n hn => ?_⟩
    · unfold Coefficient.leading?
      simp only [Coefficient.sign_eq, if_pos hcount]
    · exact hnone n.mantissa ((List.prefix_append _ _).trans (n.prefix_iff.mp hn).2)

/-- However the longest number is divided into its parts, it is what the reader reads. -/
theorem leading?_of_longestAt {n : WrittenNumber} (h : LongestAt chars cs n) : Coefficient.leading? cs = some n.toFloat := by
  rcases longestAt_or_none cs with ⟨n', hn', hread⟩ | ⟨-, hnone⟩
  · have hprefix : n.chars <+: n'.chars := List.prefix_of_prefix_length_le h.leading hn'.leading (hn'.longest n h.leading)
    have hchars : n.chars = n'.chars := hprefix.eq_of_length_le (h.longest n' hn'.leading)
    rw [hread, ← n.leading?_chars, hchars, n'.leading?_chars]
  · exact absurd h.leading (hnone n)

end WrittenNumber

/-- The text of a coefficient from where its number may begin, with the minus of a keyboard. -/
def Coefficient.start (text : String) : List Char :=
  (text.toList.map keyboard).dropWhile Text.isBlank

theorem readCoefficient_eq (text : String) :
    readCoefficient text = (Coefficient.leading? (Coefficient.start text)).getD 0.0 :=
  rfl

/-- For every text, blanks at its start apart and every minus that of a keyboard, a coefficient is read as the longest
number that the text begins with, correctly rounded, and as zero if it begins with none. The reader never fails, and
what comes after the number does not matter. -/
theorem readCoefficient_longest (text : String) :
    let cs := Coefficient.start text
    ((∃ n, LongestAt WrittenNumber.chars cs n) ∨ ∀ n : WrittenNumber, ¬ n.chars <+: cs) ∧
      (∀ n, LongestAt WrittenNumber.chars cs n → n.Reads (readCoefficient text) ∧
        ∀ text', LongestAt WrittenNumber.chars (Coefficient.start text') n →
          readCoefficient text' = readCoefficient text) ∧
      ((∀ n : WrittenNumber, ¬ n.chars <+: cs) → readCoefficient text = 0.0) ∧
      Faulting.leading cs = .ok (Coefficient.leading? cs) := by
  intro cs
  have hread {text : String} {n : WrittenNumber} (hn : LongestAt WrittenNumber.chars (Coefficient.start text) n) :
      readCoefficient text = n.toFloat := by
    rw [readCoefficient_eq, WrittenNumber.leading?_of_longestAt hn, Option.getD_some]
  refine ⟨?_, fun n hn => ⟨?_, fun text' hn' => ?_⟩, fun hnone => ?_, Faulting.leading_eq cs⟩
  · exact (WrittenNumber.longestAt_or_none cs).imp (fun ⟨n, hn, _⟩ => ⟨n, hn⟩) And.right
  · rw [hread hn]
    exact n.reads_toFloat
  · rw [hread hn, hread hn']
  · rcases WrittenNumber.longestAt_or_none cs with ⟨n, hn, -⟩ | ⟨hleading, -⟩
    · exact absurd hn.leading (hnone n)
    · rw [readCoefficient_eq, hleading]
      rfl

/-- The plus is no exponent, and is left aside with its marker. -/
example : readCoefficient " −١2.5e+x" = -12.5 := by
  decide +kernel

end TalkingCalculator
