import TalkingCalculator.Proofs.Decimal.Grids
import TalkingCalculator.Proofs.Decimal.Layout
import TalkingCalculator.Proofs.Decimal.Readings
import TalkingCalculator.Proofs.Equation.FourPlaces

/-!
# Shortest texts

A finite double is displayed with the fewest digits that read as it and, of the numbers with so many digits that do, as
one nearest to it. There is no zero in its text that could be left out.
-/
namespace TalkingCalculator

open Float.Model.UnpackedFloat

def significantDigits (text : String) : ℕ :=
  (((text.toList.filter Char.isDigit).dropWhile (· = '0')).reverse.dropWhile (· = '0')).length

theorem dropWhile_zeros {ds : List Char} (h : ds.head? ≠ some '0') (k : ℕ) :
    (List.replicate k '0' ++ ds).dropWhile (· = '0') = ds := by
  rw [List.dropWhile_append_of_pos fun c hc => decide_eq_true (List.eq_of_mem_replicate hc)]
  cases ds with
  | nil => rfl
  | cons c ds =>
    rw [List.head?_cons, ne_eq, Option.some_inj] at h
    exact List.dropWhile_cons_of_neg (by simpa using h)

namespace Literal

/-- A literal as it is usually written: with a whole part, which starts with a zero only when it is a single zero before
a point, and with no zero at the end of the fraction. -/
structure IsCanonical (l : Literal) : Prop where
  whole : l.whole ≠ []
  leading : l.whole.head? = some '0' → l.whole = ['0'] ∧ l.fraction.isSome = true
  trailing : ∀ ds ∈ l.fraction, ds ≠ [] ∧ ds.getLast? ≠ some '0'

theorem filter_isDigit_chars (l : Literal) : l.chars.filter Char.isDigit = l.whole ++ l.fractionDigits := by
  have hwhole := List.filter_eq_self.mpr l.isDigit_of_mem_whole
  have hfraction := List.filter_eq_self.mpr l.isDigit_of_mem_fraction
  unfold Mantissa.fractionDigits at hfraction ⊢
  unfold Mantissa.chars
  cases hl : l.fraction with
  | none => rw [hwhole, Option.getD_none, List.append_nil]
  | some ds =>
    rw [hl, Option.getD_some] at hfraction
    rw [List.filter_append, hwhole, List.filter_cons_of_neg (by decide), hfraction, Option.getD_some]

theorem filter_isDigit_signed (s : Sign) (l : Literal) :
    (Style.signed s l.chars).filter Char.isDigit = l.whole ++ l.fractionDigits := by
  rw [← l.filter_isDigit_chars]
  cases s with
  | positive => rfl
  | negative => exact List.filter_cons_of_neg (by decide)

end Literal

theorem getLast?_toDigits (n : ℕ) : (Nat.toDigits 10 n).getLast? = some (n % 10).digitChar := by
  rcases Nat.lt_or_ge n 10 with hlt | hge
  · rw [Nat.toDigits_of_lt_base hlt, Nat.mod_eq_of_lt hlt]
    rfl
  · rw [Nat.toDigits_of_base_le (by decide) hge, List.getLast?_concat]

theorem getLast?_toDigits_ne {n : ℕ} (h : n % 10 ≠ 0) : (Nat.toDigits 10 n).getLast? ≠ some '0' := by
  have hdigits : ∀ d < 10, d.digitChar = '0' → d = 0 := by decide
  rw [getLast?_toDigits, ne_eq, Option.some_inj]
  exact fun heq => h (hdigits _ (Nat.mod_lt n (by decide)) heq)

theorem head?_toDigits_ne {n : ℕ} (h : n % 10 ≠ 0) : (Nat.toDigits 10 n).head? ≠ some '0' := by
  intro hzero
  rw [Fixed.eq_zero_of_head?_toDigits hzero] at h
  exact h rfl

namespace Decimal

variable {d : Decimal}

/-- The digits of a decimal stand before the point, around it, or after it. -/
theorem split_cases (d : Decimal) :
    (∃ k, d.split = (Nat.toDigits 10 d.digits ++ List.replicate k '0', [])) ∨
      (∃ k, 0 < k ∧ k < (Nat.toDigits 10 d.digits).length ∧
        d.split = ((Nat.toDigits 10 d.digits).take k, (Nat.toDigits 10 d.digits).drop k)) ∨
      ∃ k, d.split = (['0'], List.replicate k '0' ++ Nat.toDigits 10 d.digits) := by
  unfold split
  cases d.exponent with
  | ofNat k => exact Or.inl ⟨k, rfl⟩
  | negSucc k =>
    simp only
    split
    · exact Or.inr (Or.inl ⟨_, by omega, by omega, rfl⟩)
    · exact Or.inr (Or.inr ⟨_, rfl⟩)

/-- Only zeros are written beside the digits of a decimal. -/
theorem exists_split_digits (d : Decimal) :
    ∃ j k, d.split.1 ++ d.split.2 = List.replicate j '0' ++ (Nat.toDigits 10 d.digits ++ List.replicate k '0') := by
  obtain ⟨k, hsplit⟩ | ⟨k, -, -, hsplit⟩ | ⟨k, hsplit⟩ := d.split_cases
  · exact ⟨0, k, by simp [hsplit]⟩
  · exact ⟨0, 0, by simp [hsplit]⟩
  · exact ⟨k + 1, 0, by simp [hsplit, List.replicate_succ]⟩

theorem eq_split_of_mem_fraction {ds : List Char} (h : ds ∈ d.literal.fraction) : ds = d.split.2 ∧ ds ≠ [] := by
  unfold literal at h
  simp only at h
  split at h
  · cases h
  · rename_i hne
    cases h
    exact ⟨rfl, hne⟩

theorem isCanonical_literal (h : d.digits % 10 ≠ 0) : d.literal.IsCanonical := by
  have hne : Nat.toDigits 10 d.digits ≠ [] := Nat.toDigits_ne_nil
  have hhead := head?_toDigits_ne h
  have hlast := getLast?_toDigits_ne h
  refine ⟨d.split_whole_ne_nil, fun hzero => ?_, fun ds hds => ?_⟩
  · change d.split.1.head? = some '0' at hzero
    obtain ⟨k, hsplit⟩ | ⟨k, hk, -, hsplit⟩ | ⟨k, hsplit⟩ := d.split_cases
    · rw [hsplit, List.head?_append_of_ne_nil _ hne] at hzero
      exact absurd hzero hhead
    · rw [hsplit, List.head?_take, if_neg hk.ne'] at hzero
      exact absurd hzero hhead
    · simp [literal, hsplit, hne]
  · obtain ⟨rfl, hds⟩ := eq_split_of_mem_fraction hds
    refine ⟨hds, ?_⟩
    obtain ⟨k, hsplit⟩ | ⟨k, -, hk, hsplit⟩ | ⟨k, hsplit⟩ := d.split_cases
    · rw [hsplit] at hds
      exact absurd rfl hds
    · rw [hsplit, List.getLast?_drop, if_neg (by omega)]
      exact hlast
    · rw [hsplit, List.getLast?_append_of_ne_nil _ hne]
      exact hlast

theorem significantDigits_literal (s : Sign) (h : d.digits % 10 ≠ 0) :
    significantDigits (.ofList (Style.signed s d.literal.chars)) = (Nat.toDigits 10 d.digits).length := by
  obtain ⟨j, k, hsplit⟩ := d.exists_split_digits
  have hhead : (Nat.toDigits 10 d.digits ++ List.replicate k '0').head? ≠ some '0' := by
    rw [List.head?_append_of_ne_nil _ Nat.toDigits_ne_nil]
    exact head?_toDigits_ne h
  unfold significantDigits
  rw [String.toList_ofList, Literal.filter_isDigit_signed, fractionDigits_literal]
  change (((d.split.1 ++ d.split.2).dropWhile _).reverse.dropWhile _).length = _
  rw [hsplit, dropWhile_zeros hhead, List.reverse_append, List.reverse_replicate, dropWhile_zeros, List.length_reverse]
  rw [List.head?_reverse]
  exact getLast?_toDigits_ne h

end Decimal

theorem abs_apply_mul_sub {s : Sign} {m : ℕ} {e : ℤ} {h : 0 < m} (hc : Canonical m e) (x : ℚ) :
    |(s.apply 1 : ℤ) * x - exactValue (Binary.ofUnpacked (.finite s m e h))| = |x - (Span.of m e).middle| := by
  have hmiddle : (Span.of m e).middle = m * 2 ^ e := by
    change ((4 * m : ℕ) : ℚ) * 2 ^ (e - 2) = m * 2 ^ e
    rw [zpow_sub₀ two_ne_zero]
    push_cast
    ring
  rw [Binary.exactValue_finite hc, Binary.apply_eq s m, hmiddle, mul_assoc, ← mul_sub, abs_mul, Binary.abs_apply_one,
    one_mul]

/-- What is displayed for a finite double other than zero has the fewest digits of all decimals that read as the double,
zeros before and after them left out. It reads as the double itself, no other number with so many digits that does is
nearer to it, and it is written without an exponent and without zeros that could be left out. -/
theorem displayNumber_shortest {v : Float} (hv : v.isFinite = true) (hzero : (v == 0.0) = false) :
    IsLeast {n | (readings v n).Nonempty} (significantDigits (displayNumber v)) ∧
      denoted (displayNumber v) ∈ readings v (significantDigits (displayNumber v)) ∧
      (∀ x ∈ readings v (significantDigits (displayNumber v)),
        |denoted (displayNumber v) - exactValue v| ≤ |x - exactValue v|) ∧
      ∃ (s : Sign) (l : Literal), (displayNumber v).toList = Style.signed s l.chars ∧ l.IsCanonical := by
  rcases Binary.eq_ofUnpacked_of_isFinite hv with ⟨s, rfl⟩ | ⟨s, m, e, h, hc, rfl⟩
  · cases s <;> exact absurd hzero (by decide)
  obtain ⟨hmod, extra, hshortest⟩ := Decimal.exists_isShortest_ofBinary hc
  generalize hd : Decimal.ofBinary m e = d at hmod hshortest
  have htext : displayNumber (Binary.ofUnpacked (.finite s m e h)) = .ofList (Style.signed s d.literal.chars) := by
    rw [← hd, ← displayNumber_ofUnpacked_finite hc, String.ofList_toList]
  have hdigits : d.digits < 10 ^ (Nat.toDigits 10 d.digits).length :=
    (Nat.length_toDigits_le_iff (by decide) Nat.length_toDigits_pos).mp le_rfl
  have hlength : (Nat.toDigits 10 d.digits).length ≤ extra + 1 :=
    (Nat.length_toDigits_le_iff (by decide) extra.succ_pos).mpr hshortest.digits_lt
  have hdenoted : denoted (.ofList (Style.signed s d.literal.chars)) = (s.apply 1 : ℤ) * d.value := by
    rw [denoted_signed, d.value_literal]
  have hreads : denoted (.ofList (Style.signed s d.literal.chars)) ∈
      readings (Binary.ofUnpacked (.finite s m e h)) (Nat.toDigits 10 d.digits).length :=
    ⟨s, d, hdigits, (d.signedFloat_eq_iff hc).mpr ⟨rfl, hshortest.mem⟩, hdenoted⟩
  rw [htext, d.significantDigits_literal s hmod]
  refine ⟨⟨⟨_, hreads⟩, ?_⟩, hreads, ?_, s, d.literal, String.toList_ofList, d.isCanonical_literal hmod⟩
  · rintro n ⟨-, s', d', hn, hread, -⟩
    obtain ⟨-, hmem⟩ := (d'.signedFloat_eq_iff hc).mp hread
    by_contra hlt
    exact hshortest.fewest _ _ (hn.trans_le (Nat.pow_le_pow_right (by decide) (by omega))) hmem
  · rintro - ⟨s', d', hn, hread, rfl⟩
    obtain ⟨rfl, hmem⟩ := (d'.signedFloat_eq_iff hc).mp hread
    have hnear := hshortest.near _ _ (hn.trans_le (Nat.pow_le_pow_right (by decide) hlength)) hmem
    rw [hdenoted, abs_apply_mul_sub hc, abs_apply_mul_sub hc]
    exact hnear

theorem displayNumber_shortest_sum :
    (0.1 + 0.2 : Float).isFinite = true ∧ ((0.1 + 0.2 : Float) == 0.0) = false ∧
      IsLeast {n | (readings (0.1 + 0.2) n).Nonempty} 17 := by
  have hfinite : (0.1 + 0.2 : Float).isFinite = true := by decide
  have hzero : ((0.1 + 0.2 : Float) == 0.0) = false := by decide
  have hdigits : significantDigits (displayNumber (0.1 + 0.2)) = 17 := by decide +kernel
  exact ⟨hfinite, hzero, hdigits ▸ (displayNumber_shortest hfinite hzero).1⟩

end TalkingCalculator
