import TalkingCalculator.Proofs.Binary.Opposites
import TalkingCalculator.Proofs.Decimal.Shortest

/-!
# What reads as a double

A number rounds to a double if and only if it lies in the double's span: beside the last place of the double, the span
is open or closed as ties go to even mantissas, and below a power of two it is as wide as the places there.
-/
namespace TalkingCalculator

open Float.Model (Format UnpackedFloat)
open Float.Model.UnpackedFloat

namespace Span

variable {m : ℕ} {e : ℤ} {x : ℚ}

theorem mem_of_units (hlow : ((Span.of m e).low : ℚ) / 4 ≤ x / 2 ^ e) (hhigh : x / 2 ^ e ≤ m + 1 / 2)
    (hend : x / 2 ^ e = (Span.of m e).low / 4 ∨ x / 2 ^ e = m + 1 / 2 → m % 2 = 0) : (Span.of m e).Mem x := by
  have hpow : (0 : ℚ) < 2 ^ e := zpow_pos two_pos e
  obtain ⟨hlow_eq, hhigh_eq⟩ := ends_eq m e
  unfold Mem
  rw [hlow_eq, hhigh_eq, ← le_div_iff₀ hpow, ← div_le_iff₀ hpow, ← lt_div_iff₀ hpow, ← div_lt_iff₀ hpow]
  split
  · exact ⟨hlow, hhigh⟩
  · rename_i hopen
    have hodd : ¬ m % 2 = 0 := fun heven => hopen (decide_eq_true heven)
    exact ⟨lt_of_le_of_ne hlow fun heq => hodd (hend (.inl heq.symm)), lt_of_le_of_ne hhigh fun heq => hodd (hend (.inr heq))⟩

theorem low_eq (m : ℕ) (e : ℤ) (hm : 0 < m) :
    m = 2 ^ 52 ∧ -1074 < e ∧ ((Span.of m e).low : ℚ) / 4 = m - 1 / 4 ∨
      ¬ (m = 2 ^ 52 ∧ -1074 < e) ∧ ((Span.of m e).low : ℚ) / 4 = m - 1 / 2 := by
  have hlow : (Span.of m e).low = 4 * m - if m = 4503599627370496 ∧ -1074 < e then 1 else 2 := rfl
  by_cases hpower : m = 4503599627370496 ∧ -1074 < e
  · rw [if_pos hpower] at hlow
    refine Or.inl ⟨hpower.1, hpower.2, ?_⟩
    rw [hlow, Nat.cast_sub (by omega)]
    push_cast
    ring
  · rw [if_neg hpower] at hlow
    refine Or.inr ⟨hpower, ?_⟩
    rw [hlow, Nat.cast_sub (by omega)]
    push_cast
    ring

/-- What rounds to a mantissa at its own scale lies in the span. -/
theorem mem_of_isNearestEven (hm : 0 < m) (ht : IsScale x e) (hq : IsNearestEven m (x / 2 ^ e)) : (Span.of m e).Mem x := by
  have hnear := abs_le.mp hq.near
  rcases low_eq m e hm with ⟨hpower, he, hlow⟩ | ⟨-, hlow⟩
  · have hfull : (2 : ℚ) ^ 52 ≤ x / 2 ^ e := ht.le_units.resolve_right (by omega)
    have hcast : (m : ℚ) = 2 ^ 52 := by exact_mod_cast hpower
    refine mem_of_units (by linarith) (by linarith) fun _ => ?_
    rw [hpower]
    rfl
  · refine mem_of_units (by linarith) (by linarith) fun hend => hq.even ?_
    rw [hlow] at hend
    rcases hend with hend | hend <;> rw [hend]
    · norm_num
    · norm_num

/-- What rounds up to a power of two from the scale below lies in the span of that power. -/
theorem mem_of_isNearestEven_below {t : ℤ} (ht : IsScale x t) (hq : IsNearestEven (2 ^ 53) (x / 2 ^ t)) :
    (Span.of (2 ^ 52) (t + 1)).Mem x := by
  have hscale := ht.le_scale
  have hunits : x / 2 ^ t = 2 * (x / 2 ^ (t + 1)) := by
    rw [zpow_add_one₀ two_ne_zero]
    field_simp
  have hlt := ht.units_lt
  have hnear := abs_le.mp hq.near
  rw [hunits] at hnear hlt
  have hlow : ((Span.of (2 ^ 52) (t + 1)).low : ℚ) / 4 = (2 ^ 52 : ℕ) - 1 / 4 :=
    (low_eq (2 ^ 52) (t + 1) (by decide)).elim (fun h => h.2.2) fun h => absurd ⟨rfl, by omega⟩ h.1
  push_cast at hnear
  refine mem_of_units ?_ ?_ fun _ => by decide
  · rw [hlow]
    push_cast
    linarith
  · push_cast
    linarith

/-- Only what lies in the span of a double rounds to it. -/
theorem mem_of_nearest (hc : Canonical m e) {s s' : Sign} {h : 0 < m} (hx : 0 ≤ x)
    (hnearest : Binary.nearest s' x = Binary.ofUnpacked (.finite s m e h)) : s' = s ∧ (Span.of m e).Mem x := by
  have hfinite := Binary.isFinite_ofUnpacked_finite (s := s) (h := h) hc
  have hunpack := Binary.unpack_ofUnpacked_finite (s := s) (h := h) hc
  rw [← hnearest] at hfinite hunpack
  rcases hx.eq_or_lt with rfl | hpos
  · rw [Binary.nearest_zero, Binary.unpack_ofUnpacked_zero] at hunpack
    cases hunpack
  have hlt : x < 2 ^ 1024 - 2 ^ 970 := by
    by_contra hover
    rw [Binary.nearest_of_overflow (not_lt.mp hover)] at hfinite
    cases s' <;> exact absurd hfinite (by decide)
  have ht := IsScale.of_log hpos
  generalize max (Int.log 2 x - 52) (-1074) = t at ht
  obtain ⟨q, hq⟩ := Binary.exists_isNearestEven (div_nonneg hpos.le (zpow_nonneg two_pos.le t))
  rw [Binary.nearest_eq hpos ht hq] at hunpack
  obtain ⟨hsettle, -⟩ | ⟨m', e', h', hsettle, hc', -, -⟩ := Binary.settle_cases (s := s') ht hq hlt
  · rw [hsettle, Binary.unpack_ofUnpacked_zero] at hunpack
    cases hunpack
  · rw [hsettle, Binary.unpack_ofUnpacked_finite hc'] at hunpack
    cases hunpack
    refine ⟨rfl, ?_⟩
    unfold Binary.settle Binary.assemble at hsettle
    by_cases hq53 : q < 2 ^ 53
    · rw [if_pos hq53] at hsettle
      split at hsettle
      · cases hsettle
      · cases hsettle
        exact mem_of_isNearestEven hc.pos ht hq
    · rw [if_neg hq53, dif_neg (by decide)] at hsettle
      cases hsettle
      have hq' : q = 2 ^ 53 := le_antisymm (Binary.mantissa_le ht hq) (not_lt.mp hq53)
      exact mem_of_isNearestEven_below ht (hq' ▸ hq)

end Span

namespace Decimal

def signedFloat (s : Sign) (d : Decimal) : Float :=
  match s with
  | .positive => d.toFloat
  | .negative => -d.toFloat

theorem signedFloat_eq_iff {m : ℕ} {e : ℤ} (hc : Canonical m e) {s s' : Sign} {h : 0 < m} (d : Decimal) :
    d.signedFloat s' = Binary.ofUnpacked (.finite s m e h) ↔ s' = s ∧ (Span.of m e).Mem d.value := by
  constructor
  · intro hreads
    cases s' with
    | positive => exact Span.mem_of_nearest hc d.value_nonneg (d.toFloat_eq.symm.trans hreads)
    | negative =>
      have hopposite : d.toFloat = Binary.ofUnpacked (.finite (-s) m e h) := by
        rw [← Binary.neg_ofUnpacked_finite hc, ← hreads]
        exact (Binary.neg_neg _).symm
      obtain ⟨hsign, hmem⟩ := Span.mem_of_nearest hc d.value_nonneg (d.toFloat_eq.symm.trans hopposite)
      refine ⟨?_, hmem⟩
      rw [← Binary.neg_neg_sign s, ← hsign]
      rfl
  · rintro ⟨rfl, hmem⟩
    have hreads : d.toFloat = Binary.ofUnpacked (.finite .positive m e h) :=
      d.toFloat_eq.trans (Span.nearest_of_mem hc hmem)
    cases s' with
    | positive => exact hreads
    | negative =>
      unfold signedFloat
      rw [hreads, Binary.neg_ofUnpacked_finite hc]
      rfl

end Decimal

/-- The numbers that read as `v` and have at most `n` digits but for zeros before and after them. -/
def readings (v : Float) (n : ℕ) : Set ℚ :=
  {x | ∃ (s : Sign) (d : Decimal), d.digits < 10 ^ n ∧ d.signedFloat s = v ∧ x = (s.apply 1 : ℤ) * d.value}

end TalkingCalculator
