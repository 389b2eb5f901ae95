import TalkingCalculator.Decimal.Fixed
import TalkingCalculator.Proofs.Binary.Comparison
import TalkingCalculator.Proofs.Decimal.Literal

/-!
# Literals with fixed places

What is written with fixed places is a literal that has a digit before the point and that many after it. Its number
is the nearest one to the double that the places can write. Before the point stands a whole number without zeros in
front of it.
-/
namespace TalkingCalculator

open Float.Model.UnpackedFloat

/-- A literal with so many places for the number `x`, which is not negative. -/
structure Literal.IsFixed (places : ℕ) (x : ℚ) (l : Literal) : Prop where
  whole : l.whole ≠ []
  fraction : ∃ ds, l.fraction = some ds ∧ ds.length = places
  nearest : ∃ q, IsNearestEven q (x * 10 ^ places) ∧ l.value = q / 10 ^ places

structure Literal.IsPlain (places : ℕ) (l : Literal) : Prop where
  whole : l.whole ≠ []
  leading : l.whole.head? = some '0' → l.whole = ['0']
  fraction : ∃ ds, l.fraction = some ds ∧ ds.length = places

namespace Fixed

theorem eq_zero_of_head?_toDigits {n : ℕ} (h : (Nat.toDigits 10 n).head? = some '0') : n = 0 := by
  induction n using Nat.strongRecOn with
  | ind n ih =>
    rcases Nat.lt_or_ge n 10 with hlt | hge
    · have hdigits : ∀ m < 10, m.digitChar = '0' → m = 0 := by decide
      rw [Nat.toDigits_of_lt_base hlt, List.head?_singleton, Option.some_inj] at h
      exact hdigits n hlt h
    · rw [Nat.toDigits_of_base_le (by norm_num) hge, List.head?_append_of_ne_nil _ Nat.toDigits_ne_nil] at h
      have := ih (n / 10) (by omega) h
      omega

theorem length_padded (width n : ℕ) : (padded width n).length = width := by
  induction width generalizing n with
  | zero => rfl
  | succ width ih => rw [padded, List.length_append, ih, List.length_singleton]

theorem isDigit_of_mem_padded {width n : ℕ} {c : Char} (hc : c ∈ padded width n) : c.isDigit = true := by
  induction width generalizing n with
  | zero => cases hc
  | succ width ih =>
    rcases List.mem_append.mp hc with hc | hc
    · exact ih hc
    · rw [List.mem_singleton.mp hc, Nat.isDigit_digitChar]
      exact decide_eq_true (Nat.mod_lt n (by decide))

/-- Padded digits after those of the number without its last places give the number back. -/
theorem ofDigitChars_padded (width n : ℕ) : Nat.ofDigitChars 10 (padded width n) (n / 10 ^ width) = n := by
  induction width generalizing n with
  | zero => simp [padded]
  | succ width ih =>
    have hdigit : n % 10 < 10 := Nat.mod_lt n (by decide)
    rw [padded, Nat.ofDigitChars_append, Nat.pow_succ', ← Nat.div_div_eq_div_mul, ih,
      Nat.ofDigitChars_cons_digitChar_of_lt_ten hdigit, Nat.ofDigitChars_nil, Nat.div_add_mod]

def literal (places n : ℕ) : Literal where
  whole := Nat.toDigits 10 (n / 10 ^ places)
  fraction := some (padded places n)
  whole_digits := forall_isSome_iff.mpr fun _ hc => Nat.isDigit_of_mem_toDigits (by norm_num) (by norm_num) hc
  fraction_digits := forall_isSome_iff.mpr fun _ hc => isDigit_of_mem_padded hc
  nonempty h := Nat.toDigits_ne_nil (List.append_eq_nil_iff.mp h).1

theorem chars_literal (places n : ℕ) : (literal places n).chars = digits places n :=
  rfl

theorem value_literal (places n : ℕ) : (literal places n).value = n / 10 ^ places := by
  rw [Literal.value_eq]
  change (Nat.ofDigitChars 10 (Nat.toDigits 10 (n / 10 ^ places) ++ padded places n) 0 : ℚ) /
    10 ^ (padded places n).length = _
  rw [Nat.ofDigitChars_append, Nat.ofDigitChars_ten_toDigits, ofDigitChars_padded, length_padded]

theorem isFixed_literal {places n : ℕ} {x : ℚ} (h : IsNearestEven n (x * 10 ^ places)) :
    (literal places n).IsFixed places x :=
  ⟨Nat.toDigits_ne_nil, ⟨_, rfl, length_padded places n⟩, n, h, value_literal places n⟩

theorem isPlain_literal (places n : ℕ) : (literal places n).IsPlain places where
  whole := Nat.toDigits_ne_nil
  leading h := by
    change Nat.toDigits 10 (n / 10 ^ places) = ['0']
    rw [eq_zero_of_head?_toDigits h, Nat.toDigits_zero]
  fraction := ⟨_, rfl, length_padded places n⟩

theorem isNearestEven_units (places m : ℕ) (e : ℤ) : IsNearestEven (units places m e) (m * 2 ^ e * 10 ^ places) := by
  have hround := isNearestEven_roundDiv (m * 2 ^ e.toNat * 10 ^ places) (Nat.two_pow_pos (-e).toNat)
  have hpow : (2 : ℚ) ^ e.toNat / 2 ^ (-e).toNat = 2 ^ e := by
    rw [← zpow_natCast, ← zpow_natCast, ← zpow_sub₀ two_ne_zero]
    congr 1
    omega
  refine (congrArg (IsNearestEven _) ?_).mp hround
  push_cast
  rw [← hpow]
  ring

def shownSign (x : Float) : Sign :=
  if x < 0.0 then .negative else .positive

theorem shownSign_finite {s : Sign} {m : ℕ} {e : ℤ} {h : 0 < m} (hc : Canonical m e) :
    shownSign (Binary.ofUnpacked (.finite s m e h)) = s := by
  unfold shownSign
  cases s with
  | positive =>
    rw [if_neg]
    exact mt (Binary.finite_lt_zero_iff hc).mp nofun
  | negative =>
    rw [if_pos]
    exact (Binary.finite_lt_zero_iff hc).mpr rfl

/-- A finite double is written as its units, after its sign. -/
theorem exists_units {x : Float} (hx : x.isFinite = true) (places : ℕ) :
    ∃ n, IsNearestEven n (|exactValue x| * 10 ^ places) ∧
      write places (x + 0.0) = .ofList (Style.signed (shownSign x) (literal places n).chars) := by
  unfold write chars
  rcases Binary.eq_ofUnpacked_of_isFinite hx with ⟨s, rfl⟩ | ⟨s, m, e, h, hc, rfl⟩
  · refine ⟨0, ?_, ?_⟩
    · rw [Binary.exactValue_zero]
      exact ⟨by simp, by simp⟩
    · rw [Binary.ofUnpacked_zero_add_zero]
      cases s <;> rfl
  · refine ⟨units places m e, ?_, ?_⟩
    · have habs : |((s.apply m : ℤ) : ℚ)| = m := by cases s <;> simp [Sign.apply]
      rw [Binary.exactValue_finite hc, abs_mul, habs, abs_of_pos (zpow_pos two_pos e)]
      exact isNearestEven_units places m e
    · rw [Binary.ofUnpacked_finite_add_zero hc, Binary.unpack_ofUnpacked_finite hc, shownSign_finite hc, chars_literal]

/-- A finite double is written as a literal with a sign. -/
theorem exists_isFixed {x : Float} (hx : x.isFinite = true) (places : ℕ) :
    ∃ l : Literal, l.IsFixed places |exactValue x| ∧
      write places (x + 0.0) = .ofList (Style.signed (shownSign x) l.chars) := by
  obtain ⟨n, hn, hwrite⟩ := exists_units hx places
  exact ⟨literal places n, isFixed_literal hn, hwrite⟩

end Fixed

end TalkingCalculator
