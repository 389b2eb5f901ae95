import TalkingCalculator.Decimal.Shortest
import TalkingCalculator.Proofs.Decimal.Reading

/-!
# The span of a double

The numbers of a double's span are the ones that round to it, so the shortest decimal of the double, which
lies in the span, reads back as the double.
-/
namespace TalkingCalculator

open Float.Model.UnpackedFloat

namespace Span

def Mem (s : Span) (x : ℚ) : Prop :=
  if s.closed then s.low * 2 ^ s.exponent ≤ x ∧ x ≤ s.high * 2 ^ s.exponent
  else s.low * 2 ^ s.exponent < x ∧ x < s.high * 2 ^ s.exponent

theorem Mem.le {s : Span} {x : ℚ} (h : s.Mem x) :
    s.low * 2 ^ s.exponent ≤ x ∧ x ≤ s.high * 2 ^ s.exponent := by
  unfold Mem at h
  split at h
  · exact h
  · exact ⟨h.1.le, h.2.le⟩

theorem Mem.closed {s : Span} {x : ℚ} (h : s.Mem x)
    (hend : x = s.low * 2 ^ s.exponent ∨ x = s.high * 2 ^ s.exponent) : s.closed = true := by
  unfold Mem at h
  split at h
  · assumption
  · rcases hend with rfl | rfl
    · exact absurd h.1 (lt_irrefl _)
    · exact absurd h.2 (lt_irrefl _)

theorem zpow_toNat_div (a : ℚ) (ha : a ≠ 0) (k : ℤ) : a ^ k.toNat / a ^ (-k).toNat = a ^ k := by
  rw [← zpow_natCast, ← zpow_natCast, ← zpow_sub₀ ha]
  congr 1
  omega

theorem unit_pos (s : Span) (k : ℤ) : 0 < (s.unit k).1 ∧ 0 < (s.unit k).2 := by
  unfold unit
  exact ⟨by simp only [Nat.pow_eq]; positivity, by simp only [Nat.pow_eq]; positivity⟩

theorem unit_div (s : Span) (k : ℤ) : ((s.unit k).1 : ℚ) / (s.unit k).2 * 10 ^ k = 2 ^ s.exponent := by
  rw [← zpow_toNat_div 2 two_ne_zero s.exponent, ← zpow_toNat_div 10 (by norm_num) k]
  simp only [unit, Nat.pow_eq]
  push_cast
  field_simp

theorem steps_le_iff (s : Span) (k : ℤ) (a d : ℕ) :
    a * (s.unit k).1 ≤ d * (s.unit k).2 ↔ (a : ℚ) * 2 ^ s.exponent ≤ d * 10 ^ k := by
  have hden : (0 : ℚ) < (s.unit k).2 := by exact_mod_cast (s.unit_pos k).2
  have hten : (0 : ℚ) < 10 ^ k := by positivity
  rw [← s.unit_div k, ← mul_assoc, mul_le_mul_iff_of_pos_right hten, ← mul_div_assoc, div_le_iff₀ hden]
  exact_mod_cast Iff.rfl

theorem le_steps_iff (s : Span) (k : ℤ) (a d : ℕ) :
    d * (s.unit k).2 ≤ a * (s.unit k).1 ↔ (d : ℚ) * 10 ^ k ≤ a * 2 ^ s.exponent := by
  have hden : (0 : ℚ) < (s.unit k).2 := by exact_mod_cast (s.unit_pos k).2
  have hten : (0 : ℚ) < 10 ^ k := by positivity
  rw [← s.unit_div k, ← mul_assoc, mul_le_mul_iff_of_pos_right hten, ← mul_div_assoc, le_div_iff₀ hden]
  exact_mod_cast Iff.rfl

theorem holds_iff (s : Span) (k : ℤ) (d : ℕ) : s.holds k d = true ↔ s.Mem (d * 10 ^ k) := by
  unfold holds Mem
  have hlow := s.steps_le_iff k s.low d
  have hhigh := s.le_steps_iff k s.high d
  by_cases hclosed : s.closed = true
  · simp only [hclosed, if_true, Bool.and_eq_true, decide_eq_true_eq, hlow, hhigh]
  · have hlow' := s.le_steps_iff k s.low d
    have hhigh' := s.steps_le_iff k s.high d
    simp only [hclosed, if_false, Bool.and_eq_true, decide_eq_true_eq, ← not_le, hlow', hhigh', Bool.false_eq_true]

theorem holds_nearest {s : Span} {k : ℤ} {d : ℕ} (h : s.nearest? k = some d) : s.holds k d = true := by
  unfold nearest? at h
  simp only at h
  split at h
  · cases h
  · rename_i hbelow _
    cases h
    exact hbelow
  · rename_i _ habove
    cases h
    exact habove
  · rename_i hbelow habove
    cases h
    split
    · exact hbelow
    · exact habove

theorem value_exact (s : Span) : s.exact.value = s.centre * 2 ^ s.exponent := by
  unfold exact Decimal.value
  by_cases h : 0 ≤ s.exponent
  · obtain ⟨n, hn⟩ := Int.eq_ofNat_of_zero_le h
    rw [if_pos h, hn]
    simp only [Int.toNat_natCast, Nat.pow_eq]
    push_cast
    rw [mul_one, zpow_natCast]
  · obtain ⟨n, hn⟩ := Int.eq_ofNat_of_zero_le (by omega : 0 ≤ -s.exponent)
    rw [if_neg h]
    rw [show s.exponent = -(n : ℤ) by omega]
    simp only [neg_neg, Int.toNat_natCast, Nat.pow_eq, zpow_neg, zpow_natCast]
    push_cast
    rw [show (10 : ℚ) = 5 * 2 by norm_num, mul_pow]
    field_simp

theorem mem_shortest {s : Span} (hcentre : s.Mem (s.centre * 2 ^ s.exponent)) : s.Mem s.shortest.value := by
  unfold shortest
  cases hfind : (List.range 17).findSome? s.withDigits with
  | none =>
    rw [Option.getD_none, value_exact]
    exact hcentre
  | some d =>
    rw [Option.getD_some]
    obtain ⟨extra, -, hextra⟩ := List.exists_of_findSome?_eq_some hfind
    unfold withDigits at hextra
    obtain ⟨n, hn, rfl⟩ := Option.map_eq_some_iff.mp hextra
    exact (s.holds_iff _ n).mp (holds_nearest hn)

theorem low_lt_centre {m : ℕ} {e : ℤ} (hm : 0 < m) : (Span.of m e).low < (Span.of m e).centre := by
  simp only [Span.of]
  split <;> omega

theorem mem_centre {m : ℕ} {e : ℤ} (hm : 0 < m) :
    (Span.of m e).Mem ((Span.of m e).centre * 2 ^ (Span.of m e).exponent) := by
  have hpow : (0 : ℚ) < 2 ^ (Span.of m e).exponent := zpow_pos two_pos _
  have hlow : ((Span.of m e).low : ℚ) < (Span.of m e).centre := by exact_mod_cast low_lt_centre hm
  have hhigh : ((Span.of m e).centre : ℚ) < (Span.of m e).high := by simp [Span.of]
  have hlow' := mul_lt_mul_of_pos_right hlow hpow
  have hhigh' := mul_lt_mul_of_pos_right hhigh hpow
  unfold Mem
  split
  · exact ⟨hlow'.le, hhigh'.le⟩
  · exact ⟨hlow', hhigh'⟩

variable {m : ℕ} {e : ℤ} {x : ℚ}

theorem ends_eq (m : ℕ) (e : ℤ) :
    ((Span.of m e).low : ℚ) * 2 ^ (Span.of m e).exponent = (Span.of m e).low / 4 * 2 ^ e ∧
      ((Span.of m e).high : ℚ) * 2 ^ (Span.of m e).exponent = (m + 1 / 2) * 2 ^ e := by
  have hquarter : (2 : ℚ) ^ (Span.of m e).exponent = 2 ^ e / 4 := by
    rw [show (Span.of m e).exponent = e - 2 from rfl, zpow_sub₀ two_ne_zero]
    norm_num
  rw [hquarter, show (Span.of m e).high = 4 * m + 2 from rfl]
  push_cast
  constructor <;> ring

/-- The ends of the span in units of the last place, and whom they belong to. -/
theorem Mem.units (h : (Span.of m e).Mem x) :
    ((Span.of m e).low : ℚ) / 4 ≤ x / 2 ^ e ∧ x / 2 ^ e ≤ m + 1 / 2 ∧
      (x / 2 ^ e = (Span.of m e).low / 4 ∨ x / 2 ^ e = m + 1 / 2 → m % 2 = 0) := by
  have hpow : (0 : ℚ) < 2 ^ e := zpow_pos two_pos e
  obtain ⟨hlow, hhigh⟩ := ends_eq m e
  have hle := h.le
  rw [hlow, hhigh] at hle
  refine ⟨(le_div_iff₀ hpow).mpr hle.1, (div_le_iff₀ hpow).mpr hle.2, fun hend => ?_⟩
  rw [div_eq_iff hpow.ne', div_eq_iff hpow.ne', ← hlow, ← hhigh] at hend
  exact of_decide_eq_true (h.closed hend)

theorem sub_half_le_low : (m : ℚ) - 1 / 2 ≤ (Span.of m e).low / 4 := by
  have hle : 4 * m ≤ (Span.of m e).low + 2 := by
    simp only [Span.of]
    split <;> omega
  have : ((4 * m : ℕ) : ℚ) ≤ ((Span.of m e).low + 2 : ℕ) := by exact_mod_cast hle
  push_cast at this
  linarith

theorem Mem.pos (h : (Span.of m e).Mem x) (hm : 0 < m) : 0 < x := by
  obtain ⟨hlow, -, -⟩ := h.units
  have hhalf := sub_half_le_low (m := m) (e := e)
  have hone : (1 : ℚ) ≤ m := by exact_mod_cast hm
  rw [Binary.eq_units_mul x e]
  exact mul_pos (by linarith) (zpow_pos two_pos e)

/-- On the scale of the double, the span is what rounds to its mantissa. -/
theorem nearest_of_mem_full (hc : Canonical m e) {s : Sign} (h : (Span.of m e).Mem x)
    (hfull : 2 ^ 52 ≤ x / 2 ^ e ∨ e = -1074) :
    Binary.nearest s x = Binary.ofUnpacked (.finite s m e hc.pos) := by
  obtain ⟨hlow, hhigh, hend⟩ := h.units
  have hpow : (0 : ℚ) < 2 ^ e := zpow_pos two_pos e
  have hhalf := sub_half_le_low (m := m) (e := e)
  have hm : ((m + 1 : ℕ) : ℚ) ≤ (2 ^ 53 : ℕ) := by exact_mod_cast hc.lt
  have ht : IsScale x e := by
    refine ⟨hc.le_exponent, ?_, hfull.imp_left fun hle => ?_⟩
    · rw [Binary.eq_units_mul x e, zpow_add₀ two_ne_zero]
      refine mul_lt_mul_of_pos_right (lt_of_le_of_lt hhigh ?_) hpow
      norm_num at hm ⊢
      linarith
    · rw [Binary.eq_units_mul x e, zpow_add₀ two_ne_zero]
      exact mul_le_mul_of_nonneg_right hle hpow.le
  have hq : IsNearestEven m (x / 2 ^ e) := by
    refine ⟨abs_le.mpr ⟨by linarith, by linarith⟩, fun htie => hend ?_⟩
    rcases (abs_eq (by norm_num)).mp htie with hup | hdown
    · exact Or.inr (by linarith)
    · exact Or.inl (by linarith)
  rw [Binary.nearest_eq (h.pos hc.pos) ht hq, Binary.settle, if_pos hc.lt, Binary.assemble, dif_neg hc.pos.ne']

theorem eq_of_mem_below (hc : Canonical m e) (h : (Span.of m e).Mem x) (hbelow : x / 2 ^ e < 2 ^ 52)
    (he : e ≠ -1074) : m = 2 ^ 52 := by
  obtain ⟨hlow, -, -⟩ := h.units
  have hhalf := sub_half_le_low (m := m) (e := e)
  have hfull := hc.full.resolve_right he
  have hcast : ((m : ℕ) : ℚ) < (2 ^ 52 + 1 : ℕ) := by
    push_cast
    linarith
  have hlt : m < 2 ^ 52 + 1 := by exact_mod_cast hcast
  omega

/-- Below a power of two the doubles stand closer, and what is in its span there rounds up to it. -/
theorem nearest_of_mem_below (hc : Canonical m e) {s : Sign} (h : (Span.of m e).Mem x)
    (hbelow : x / 2 ^ e < 2 ^ 52) (he : e ≠ -1074) :
    Binary.nearest s x = Binary.ofUnpacked (.finite s m e hc.pos) := by
  obtain ⟨hlow, hhigh, hend⟩ := h.units
  have hpow : (0 : ℚ) < 2 ^ e := zpow_pos two_pos e
  have hge := hc.le_exponent
  have hm := eq_of_mem_below hc h hbelow he
  have hquarter : (Span.of m e).low = 4 * 2 ^ 52 - 1 := by
    simp only [Span.of]
    rw [if_pos ⟨hm, by omega⟩, hm]
  rw [hquarter] at hlow
  have hunits : x / 2 ^ (e - 1) = 2 * (x / 2 ^ e) := by
    rw [zpow_sub_one₀ two_ne_zero]
    field_simp
  have ht : IsScale x (e - 1) := by
    refine ⟨by omega, ?_, Or.inl ?_⟩
    · rw [Binary.eq_units_mul x e, show 53 + (e - 1) = 52 + e by ring, zpow_add₀ two_ne_zero]
      exact mul_lt_mul_of_pos_right hbelow hpow
    · rw [Binary.eq_units_mul x e, show 52 + (e - 1) = 51 + e by ring, zpow_add₀ two_ne_zero]
      refine mul_le_mul_of_nonneg_right (le_trans ?_ hlow) hpow.le
      norm_num
  have hq : IsNearestEven (2 ^ 53) (x / 2 ^ (e - 1)) := by
    rw [hunits]
    norm_num at hlow hbelow
    refine ⟨abs_le.mpr ⟨?_, ?_⟩, fun _ => rfl⟩
    · push_cast
      linarith
    · push_cast
      linarith
  rw [Binary.nearest_eq (h.pos hc.pos) ht hq, Binary.settle, if_neg (lt_irrefl _), Binary.assemble,
    dif_neg (by norm_num)]
  simp only [hm, sub_add_cancel]

theorem nearest_of_mem (hc : Canonical m e) {s : Sign} (h : (Span.of m e).Mem x) :
    Binary.nearest s x = Binary.ofUnpacked (.finite s m e hc.pos) := by
  by_cases hfull : 2 ^ 52 ≤ x / 2 ^ e ∨ e = -1074
  · exact nearest_of_mem_full hc h hfull
  · push Not at hfull
    exact nearest_of_mem_below hc h hfull.1 hfull.2

end Span

namespace Decimal

theorem value_trim (d : Decimal) : d.trim.value = d.value := by
  induction d using trim.induct with
  | case1 d hzero ih =>
    rw [trim, if_pos hzero, ih]
    have hdigits : (d.digits : ℚ) = 10 * (d.digits / 10 : ℕ) := by
      exact_mod_cast (Nat.mul_div_cancel' (Nat.dvd_of_mod_eq_zero hzero.2)).symm
    unfold value
    rw [hdigits, zpow_add_one₀ (by norm_num)]
    ring
  | case2 d hzero => rw [trim, if_neg hzero]

/-- The shortest decimal of a double reads back as the double. -/
theorem nearest_value_ofBinary {m : ℕ} {e : ℤ} (hc : Canonical m e) (s : Sign) :
    Binary.nearest s (ofBinary m e).value = Binary.ofUnpacked (.finite s m e hc.pos) := by
  unfold ofBinary
  rw [value_trim]
  exact Span.nearest_of_mem hc (Span.mem_shortest (Span.mem_centre hc.pos))

end Decimal

end TalkingCalculator
