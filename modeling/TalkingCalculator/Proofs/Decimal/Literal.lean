import TalkingCalculator.Decimal.Style
import TalkingCalculator.Text.DecimalDigit
import TalkingCalculator.Proofs.Decimal.Mantissa

/-!
# Literals

A literal is a mantissa in the digits from `0` to `9`. A numeral that starts a text is the literal up to the first
character that could not go on with it.
-/
namespace TalkingCalculator

abbrev Literal := Mantissa Text.asciiDigitValue?

def RunChar (c : Char) : Prop :=
  c.isDigit = true ∨ c = '.'

instance : DecidablePred RunChar := fun c => inferInstanceAs (Decidable (c.isDigit = true ∨ c = '.'))

/-- No run of digits and points goes on with this text. -/
def RunEnds (cs : List Char) : Prop :=
  ∀ c ∈ cs.head?, ¬ RunChar c

theorem runEnds_nil : RunEnds [] := by
  intro c hc
  cases hc

theorem runEnds_cons {c : Char} (hc : ¬ RunChar c) (cs : List Char) : RunEnds (c :: cs) := by
  intro d hd
  cases hd
  exact hc

theorem RunEnds.not_isDigit {cs : List Char} (h : RunEnds cs) : ∀ c ∈ cs.head?, c.isDigit = false := by
  intro c hc
  exact Bool.eq_false_iff.mpr fun hdigit => h c hc (Or.inl hdigit)

theorem runEnds_of_head {cs : List Char} (hdigit : ∀ c ∈ cs.head?, c.isDigit = false)
    (hpoint : cs.head? ≠ some '.') : RunEnds cs := by
  intro c hc hrun
  rcases hrun with h | rfl
  · rw [hdigit c hc] at h
    cases h
  · exact hpoint hc

theorem digit_range_iff {c : Char} : ('0' ≤ c ∧ c ≤ '9') ↔ c.isDigit = true := by
  simp [Char.isDigit, Char.le_def, UInt32.le_iff_toNat_le]

theorem asciiDigitValue?_of_isDigit {c : Char} (hc : c.isDigit = true) :
    Text.asciiDigitValue? c = some (c.toNat - '0'.toNat) := by
  unfold Text.asciiDigitValue?
  rw [if_pos (digit_range_iff.mpr hc)]

theorem asciiDigitValue?_of_not_isDigit {c : Char} (hc : c.isDigit = false) : Text.asciiDigitValue? c = none := by
  unfold Text.asciiDigitValue?
  rw [if_neg (mt digit_range_iff.mp (Bool.eq_false_iff.mp hc))]

theorem isSome_asciiDigitValue? {c : Char} : (Text.asciiDigitValue? c).isSome = c.isDigit := by
  cases hc : c.isDigit with
  | true => rw [asciiDigitValue?_of_isDigit hc, Option.isSome_some]
  | false => rw [asciiDigitValue?_of_not_isDigit hc, Option.isSome_none]

theorem forall_isSome_iff {ds : List Char} :
    (∀ c ∈ ds, (Text.asciiDigitValue? c).isSome) ↔ ∀ c ∈ ds, c.isDigit = true := by
  simp only [isSome_asciiDigitValue?]

theorem leading_append_point {whole fraction rest : List Char} (hwhole : ∀ c ∈ whole, c.isDigit = true)
    (hfraction : ∀ c ∈ fraction, c.isDigit = true) (hrest : ∀ c ∈ rest.head?, c.isDigit = false) :
    Numeral.leading Text.asciiDigitValue? (whole ++ '.' :: (fraction ++ rest)) =
      ⟨whole.map (Numeral.valueOf Text.asciiDigitValue?), true,
        fraction.map (Numeral.valueOf Text.asciiDigitValue?)⟩ := by
  rw [Numeral.leading_run_point rfl (forall_isSome_iff.mpr hwhole),
    Numeral.leadingDigits_run (forall_isSome_iff.mpr hfraction)
      fun c hc => asciiDigitValue?_of_not_isDigit (hrest c hc)]

theorem ofDigits_digits {ds : List Char} (hds : ∀ c ∈ ds, c.isDigit = true) :
    Nat.ofDigits 10 (ds.map (Numeral.valueOf Text.asciiDigitValue?)).reverse = Nat.ofDigitChars 10 ds 0 := by
  have hmap : ds.map (Numeral.valueOf Text.asciiDigitValue?) = ds.map fun c => c.toNat - '0'.toNat := by
    refine List.map_congr_left fun c hc => ?_
    unfold Numeral.valueOf
    rw [asciiDigitValue?_of_isDigit (hds c hc), Option.getD_some]
  rw [hmap, ← Mantissa.ofDigits_eq, Decimal.ofDigits, List.foldl_map, Nat.ofDigitChars_eq_foldl]

namespace Literal

variable (l : Literal)

theorem isDigit_of_mem_whole : ∀ c ∈ l.whole, c.isDigit = true :=
  forall_isSome_iff.mp l.whole_digits

theorem isDigit_of_mem_fraction : ∀ c ∈ l.fractionDigits, c.isDigit = true :=
  forall_isSome_iff.mp l.fraction_digits

theorem value_eq : l.value = Nat.ofDigitChars 10 (l.whole ++ l.fractionDigits) 0 / 10 ^ l.fractionDigits.length := by
  have hdigits : ∀ c ∈ l.whole ++ l.fractionDigits, c.isDigit = true :=
    List.forall_mem_append.mpr ⟨l.isDigit_of_mem_whole, l.isDigit_of_mem_fraction⟩
  unfold Mantissa.value
  rw [ofDigits_digits hdigits]

theorem leading_chars_append {rest : List Char} (hrest : RunEnds rest) :
    Numeral.leading Text.asciiDigitValue? (l.chars ++ rest) = l.numeral := by
  refine l.leading_append rfl fun c hc => ⟨asciiDigitValue?_of_not_isDigit (hrest.not_isDigit c hc), ?_⟩
  rintro rfl
  exact hrest '.' hc (Or.inr rfl)

theorem runChar_of_mem {c : Char} (hc : c ∈ l.chars) : RunChar c := by
  have hfraction := l.isDigit_of_mem_fraction
  unfold Mantissa.fractionDigits at hfraction
  unfold Mantissa.chars at hc
  cases hcases : l.fraction with
  | none =>
    rw [hcases] at hc
    exact Or.inl (l.isDigit_of_mem_whole c hc)
  | some ds =>
    rw [hcases] at hc hfraction
    rcases List.mem_append.mp hc with h | h
    · exact Or.inl (l.isDigit_of_mem_whole c h)
    · rcases List.mem_cons.mp h with h | h
      · exact Or.inr h
      · exact Or.inl (hfraction c h)

end Literal

end TalkingCalculator
