import TalkingCalculator.Expression.Evaluation
import TalkingCalculator.Proofs.Decimal.Literal
import TalkingCalculator.Proofs.Decimal.Shortest

/-!
# The display's layout

The display writes a decimal positionally. What it writes is a literal of the same value, with digits before
the point and, if there is a point, after it.
-/
namespace TalkingCalculator

open Float.Model.UnpackedFloat

namespace Decimal

theorem isDigit_of_mem_toDigits {n : ℕ} {c : Char} (hc : c ∈ Nat.toDigits 10 n) : c.isDigit = true :=
  Nat.isDigit_of_mem_toDigits (by norm_num) (by norm_num) hc

theorem isDigit_of_mem_replicate {k : ℕ} {c : Char} (hc : c ∈ List.replicate k '0') : c.isDigit = true := by
  rw [List.eq_of_mem_replicate hc]
  rfl

theorem split_digits (d : Decimal) : ∀ c ∈ d.split.1 ++ d.split.2, c.isDigit = true := by
  obtain ⟨n, e⟩ := d
  intro c hc
  unfold split at hc
  cases e with
  | ofNat k =>
    rw [List.append_nil] at hc
    rcases List.mem_append.mp hc with h | h
    · exact isDigit_of_mem_toDigits h
    · exact isDigit_of_mem_replicate h
  | negSucc k =>
    simp only at hc
    split at hc
    · rw [List.take_append_drop] at hc
      exact isDigit_of_mem_toDigits hc
    · rcases List.mem_append.mp hc with h | h
      · rw [List.mem_singleton.mp h]
        rfl
      · rcases List.mem_append.mp h with h | h
        · exact isDigit_of_mem_replicate h
        · exact isDigit_of_mem_toDigits h

theorem split_whole_ne_nil (d : Decimal) : d.split.1 ≠ [] := by
  obtain ⟨n, e⟩ := d
  have hne : Nat.toDigits 10 n ≠ [] := Nat.toDigits_ne_nil
  unfold split
  cases e with
  | ofNat k => simp [hne]
  | negSucc k =>
    simp only
    split
    · rename_i hlt
      intro h
      have := congrArg List.length h
      simp only [List.length_take, List.length_nil] at this
      omega
    · simp

theorem value_split (d : Decimal) :
    (Nat.ofDigitChars 10 (d.split.1 ++ d.split.2) 0 : ℚ) / 10 ^ d.split.2.length = d.value := by
  obtain ⟨n, e⟩ := d
  unfold split value
  cases e with
  | ofNat k =>
    simp only [List.append_nil, List.length_nil, pow_zero, div_one, Int.ofNat_eq_natCast, zpow_natCast]
    rw [Nat.ofDigitChars_append, Nat.ofDigitChars_ten_toDigits, Nat.ofDigitChars_replicate_zero]
    push_cast
    ring
  | negSucc k =>
    simp only
    rw [zpow_negSucc, ← div_eq_mul_inv]
    split
    · rename_i hlt
      rw [List.take_append_drop, Nat.ofDigitChars_ten_toDigits, List.length_drop]
      congr 2
      omega
    · rename_i hle
      have hzero : Nat.ofDigitChars 10 ['0'] 0 = 0 := rfl
      rw [Nat.ofDigitChars_append, hzero, Nat.ofDigitChars_append, Nat.ofDigitChars_replicate_zero, Nat.mul_zero,
        Nat.ofDigitChars_ten_toDigits, List.length_append, List.length_replicate]
      congr 2
      omega

def literal (d : Decimal) : Literal where
  whole := d.split.1
  fraction := if d.split.2 = [] then none else some d.split.2
  whole_digits := forall_isSome_iff.mpr fun c hc => d.split_digits c (List.mem_append_left _ hc)
  fraction_digits := forall_isSome_iff.mpr fun c hc => by
    refine d.split_digits c (List.mem_append_right _ ?_)
    split at hc
    · cases hc
    · exact hc
  nonempty h := d.split_whole_ne_nil (List.append_eq_nil_iff.mp h).1

theorem fractionDigits_literal (d : Decimal) : d.literal.fractionDigits = d.split.2 := by
  unfold Mantissa.fractionDigits literal
  by_cases h : d.split.2 = []
  · simp [h]
  · simp [h]

theorem fraction_literal_ne (d : Decimal) : d.literal.fraction ≠ some [] := by
  unfold literal
  by_cases h : d.split.2 = []
  · simp [h]
  · simp [h]

theorem chars_literal (d : Decimal) : d.literal.chars = displayStyle.decimal d := by
  unfold Mantissa.chars literal Style.decimal displayStyle
  simp only [if_true]
  cases hfraction : d.split.2 with
  | nil => simp [Style.withPoint]
  | cons c cs => simp [Style.withPoint]

theorem value_literal (d : Decimal) : d.literal.value = d.value := by
  rw [Literal.value_eq, fractionDigits_literal]
  exact d.value_split

end Decimal

/-- The text of a finite double is a literal with a sign. -/
theorem displayNumber_ofUnpacked_finite {s : Sign} {m : ℕ} {e : ℤ} {h : 0 < m} (hc : Canonical m e) :
    (displayNumber (Binary.ofUnpacked (.finite s m e h))).toList =
      Style.signed s (Decimal.ofBinary m e).literal.chars := by
  unfold displayNumber Style.write Style.chars
  rw [Binary.ofUnpacked_finite_add_zero hc, Binary.unpack_ofUnpacked_finite hc, String.toList_ofList,
    Decimal.chars_literal]

theorem displayNumber_ofUnpacked_zero {s : Sign} : displayNumber (Binary.ofUnpacked (.zero s)) = "0" := by
  unfold displayNumber
  rw [Binary.ofUnpacked_zero_add_zero]
  decide +kernel

end TalkingCalculator
