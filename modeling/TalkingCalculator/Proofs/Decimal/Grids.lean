import TalkingCalculator.Proofs.Decimal.Shortest

/-!
# Grids of powers of ten

On a grid of a power of ten, the search for the shortest decimal finds the step that is nearest to the centre of a span
among those that lie in the span, if there are any. A decimal of the span with few digits lies on a coarse grid, or there
is one nearer to the centre that does, so the first grid that has a step in the span has the shortest decimals. The grid
of seventeen digits always has one.
-/
namespace TalkingCalculator

theorem decimalLength_spec {n : ℕ} (hn : 0 < n) : ∃ k, decimalLength n = k + 1 ∧ 10 ^ k ≤ n ∧ n < 10 ^ (k + 1) := by
  fun_induction decimalLength n with
  | case1 n hlt => exact ⟨0, rfl, hn, hlt⟩
  | case2 n hge ih =>
    obtain ⟨k, hlength, hle, hlt⟩ := ih (by omega)
    refine ⟨k + 1, by rw [hlength], ?_, ?_⟩
    · have := pow_succ 10 k
      omega
    · have := pow_succ 10 (k + 1)
      omega

/-- The first digit of a fraction has this exponent. -/
theorem leadingExponent_spec {num den : ℕ} (hnum : 0 < num) (hden : 0 < den) :
    (10 : ℚ) ^ leadingExponent num den ≤ num / den ∧ (num / den : ℚ) < 10 ^ (leadingExponent num den + 1) := by
  have hden' : (0 : ℚ) < den := by exact_mod_cast hden
  unfold leadingExponent
  split
  · rename_i hle
    obtain ⟨k, hlength, hlow, hhigh⟩ := decimalLength_spec (Nat.div_pos hle hden)
    have hexponent : ((decimalLength (num / den) : ℤ) - 1) = k := by omega
    rw [hexponent, le_div_iff₀ hden', div_lt_iff₀ hden', zpow_natCast, ← Nat.cast_succ, zpow_natCast]
    exact ⟨by exact_mod_cast (Nat.le_div_iff_mul_le hden).mp hlow, by exact_mod_cast (Nat.div_lt_iff_lt_mul hden).mp hhigh⟩
  · rename_i hlt
    obtain ⟨k, hlength, hlow, hhigh⟩ := decimalLength_spec (n := (den - 1) / num) (Nat.div_pos (by omega) hnum)
    have hlow' : 10 ^ k * num < den := by
      have := (Nat.le_div_iff_mul_le hnum).mp hlow
      omega
    have hhigh' : den ≤ 10 ^ (k + 1) * num := by
      have := (Nat.div_lt_iff_lt_mul hnum).mp hhigh
      omega
    have hexponent : -(decimalLength ((den - 1) / num) : ℤ) = -(k + 1 : ℕ) := by omega
    have hnext : -((k + 1 : ℕ) : ℤ) + 1 = -(k : ℕ) := by omega
    rw [hexponent, hnext, le_div_iff₀ hden', div_lt_iff₀ hden', zpow_neg, zpow_neg, zpow_natCast, zpow_natCast,
      inv_mul_le_iff₀ (by positivity), lt_inv_mul_iff₀ (by positivity)]
    exact ⟨by exact_mod_cast hhigh', by exact_mod_cast hlow'⟩

namespace Span

def middle (s : Span) : ℚ :=
  s.centre * 2 ^ s.exponent

theorem Mem.between {s : Span} {a x b : ℚ} (ha : s.Mem a) (hb : s.Mem b) (hax : a ≤ x) (hxb : x ≤ b) : s.Mem x := by
  unfold Mem at ha hb ⊢
  split at ha
  · rename_i hclosed
    rw [if_pos hclosed] at hb ⊢
    exact ⟨ha.1.trans hax, hxb.trans hb.2⟩
  · rename_i hopen
    rw [if_neg hopen] at hb ⊢
    exact ⟨ha.1.trans_le hax, hxb.trans_lt hb.2⟩

variable {s : Span} {k : ℤ} {d : ℕ}

theorem firstPlace_spec (h : 0 < s.centre) :
    (10 : ℚ) ^ s.firstPlace ≤ s.middle ∧ s.middle < 10 ^ (s.firstPlace + 1) := by
  have hnum : 0 < s.centre * Nat.pow 2 s.exponent.toNat := Nat.mul_pos h (Nat.pow_pos two_pos)
  have hden : 0 < Nat.pow 2 (-s.exponent).toNat := Nat.pow_pos two_pos
  have hspec := leadingExponent_spec hnum hden
  have hmiddle : ((s.centre * Nat.pow 2 s.exponent.toNat : ℕ) : ℚ) / (Nat.pow 2 (-s.exponent).toNat : ℕ) = s.middle := by
    unfold middle
    rw [← zpow_toNat_div 2 two_ne_zero s.exponent, ← mul_div_assoc]
    push_cast [Nat.pow_eq]
    rfl
  rw [hmiddle] at hspec
  exact hspec

theorem middle_div (s : Span) (k : ℤ) : s.middle / 10 ^ k = (s.centre * (s.unit k).1 : ℕ) / ((s.unit k).2 : ℕ) := by
  unfold middle
  rw [← s.unit_div k, div_eq_iff (by positivity), Nat.cast_mul, ← mul_assoc, mul_div_assoc]

theorem abs_steps_sub (s : Span) (k : ℤ) (d : ℕ) :
    |d * 10 ^ k - s.middle| = |s.middle / 10 ^ k - d| * 10 ^ k := by
  have hpow : (0 : ℚ) < 10 ^ k := by positivity
  rw [← abs_of_pos hpow, ← abs_mul, abs_of_pos hpow, sub_mul, div_mul_cancel₀ _ hpow.ne', abs_sub_comm]

/-- The last step that is not beyond the centre. -/
def below (s : Span) (k : ℤ) : ℕ :=
  s.centre * (s.unit k).1 / (s.unit k).2

theorem below_spec (s : Span) (k : ℤ) :
    (s.below k : ℚ) * 10 ^ k ≤ s.middle ∧ s.middle < (s.below k + 1 : ℕ) * 10 ^ k := by
  have hpow : (0 : ℚ) < 10 ^ k := by positivity
  have hden : (0 : ℚ) < (s.unit k).2 := by exact_mod_cast (s.unit_pos k).2
  rw [← le_div_iff₀ hpow, ← div_lt_iff₀ hpow, s.middle_div k, le_div_iff₀ hden, div_lt_iff₀ hden]
  exact ⟨by exact_mod_cast Nat.div_mul_le_self _ _, by exact_mod_cast Nat.lt_mul_of_div_lt (Nat.lt_succ_self _) (s.unit_pos k).2⟩

theorem steps_le_steps {d d' : ℕ} (k : ℤ) (h : d ≤ d') : (d : ℚ) * 10 ^ k ≤ d' * 10 ^ k :=
  mul_le_mul_of_nonneg_right (by exact_mod_cast h) (by positivity)

/-- The steps up to the centre are the closer to it the greater they are. -/
theorem abs_below_sub_le (h : d ≤ s.below k) : |s.below k * 10 ^ k - s.middle| ≤ |d * 10 ^ k - s.middle| := by
  have hle := steps_le_steps k h
  have hbelow := (s.below_spec k).1
  rw [abs_of_nonpos (by linarith), abs_of_nonpos (by linarith)]
  linarith

theorem abs_above_sub_le (h : s.below k < d) :
    |(s.below k + 1 : ℕ) * 10 ^ k - s.middle| ≤ |d * 10 ^ k - s.middle| := by
  have hle := steps_le_steps k (Nat.succ_le_of_lt h)
  have habove := (s.below_spec k).2
  rw [abs_of_nonneg (by linarith), abs_of_nonneg (by linarith)]
  linarith

theorem nearest?_eq (s : Span) (k : ℤ) :
    s.nearest? k = match s.holds k (s.below k), s.holds k (s.below k + 1) with
      | false, false => none
      | true, false => some (s.below k)
      | false, true => some (s.below k + 1)
      | true, true => some (roundDiv (s.centre * (s.unit k).1) (s.unit k).2) :=
  rfl

/-- A step that lies in the span, and no farther from its centre than the others that do. -/
structure IsNearestStep (s : Span) (k : ℤ) (d : ℕ) : Prop where
  mem : s.Mem (d * 10 ^ k)
  near : ∀ d' : ℕ, s.Mem (d' * 10 ^ k) → |d * 10 ^ k - s.middle| ≤ |d' * 10 ^ k - s.middle|

theorem roundDiv_le (n d : ℕ) : roundDiv n d ≤ n / d + 1 := by
  unfold roundDiv
  extract_lets
  split <;> omega

/-- Rounding the centre gives the step that is nearest to it. -/
theorem abs_roundDiv_sub_le (s : Span) (k : ℤ) (d : ℕ) :
    |roundDiv (s.centre * (s.unit k).1) (s.unit k).2 * 10 ^ k - s.middle| ≤ |d * 10 ^ k - s.middle| := by
  have hnearest := (isNearestEven_roundDiv (s.centre * (s.unit k).1) (s.unit_pos k).2).le_abs_sub d
  rw [← s.middle_div k] at hnearest
  rw [s.abs_steps_sub, s.abs_steps_sub]
  exact mul_le_mul_of_nonneg_right hnearest (by positivity)

variable (hmiddle : s.Mem s.middle)
include hmiddle

/-- Between a step of the span and the centre lies one of the two neighbours of the centre. -/
theorem mem_neighbour (hd : s.Mem (d * 10 ^ k)) :
    d ≤ s.below k ∧ s.Mem (s.below k * 10 ^ k) ∨ s.below k < d ∧ s.Mem ((s.below k + 1 : ℕ) * 10 ^ k) := by
  rcases Nat.lt_or_ge (s.below k) d with hlt | hle
  · exact Or.inr ⟨hlt, hmiddle.between hd (s.below_spec k).2.le (steps_le_steps k (Nat.succ_le_of_lt hlt))⟩
  · exact Or.inl ⟨hle, hd.between hmiddle (steps_le_steps k hle) (s.below_spec k).1⟩

theorem not_mem_of_nearest?_eq_none (h : s.nearest? k = none) (d : ℕ) : ¬ s.Mem (d * 10 ^ k) := by
  intro hd
  rw [nearest?_eq] at h
  cases hbelow : s.holds k (s.below k) <;> cases habove : s.holds k (s.below k + 1) <;> rw [hbelow, habove] at h
  case false.false =>
    rw [← Bool.not_eq_true, holds_iff] at hbelow habove
    exact (mem_neighbour hmiddle hd).elim (fun hle => hbelow hle.2) fun hlt => habove hlt.2
  all_goals cases h

theorem isNearestStep_of_nearest? (h : s.nearest? k = some d) : s.IsNearestStep k d ∧ d ≤ s.below k + 1 := by
  rw [nearest?_eq] at h
  cases hbelow : s.holds k (s.below k) <;> cases habove : s.holds k (s.below k + 1) <;> rw [hbelow, habove] at h <;>
    cases h
  case true.false =>
    rw [holds_iff] at hbelow
    rw [← Bool.not_eq_true, holds_iff] at habove
    refine ⟨⟨hbelow, fun d' hd' => abs_below_sub_le ?_⟩, Nat.le_succ _⟩
    exact (mem_neighbour hmiddle hd').elim And.left fun hlt => absurd hlt.2 habove
  case false.true =>
    rw [← Bool.not_eq_true, holds_iff] at hbelow
    rw [holds_iff] at habove
    refine ⟨⟨habove, fun d' hd' => abs_above_sub_le ?_⟩, le_rfl⟩
    exact (mem_neighbour hmiddle hd').elim (fun hle => absurd hle.2 hbelow) And.left
  case true.true =>
    have hround : s.holds k (roundDiv (s.centre * (s.unit k).1) (s.unit k).2) = true :=
      holds_nearest ((nearest?_eq s k).trans (by rw [hbelow, habove]))
    exact ⟨⟨(s.holds_iff k _).mp hround, fun d' _ => s.abs_roundDiv_sub_le k d'⟩, roundDiv_le _ _⟩

end Span

namespace Span

variable {s : Span} {extra : ℕ}

theorem zpow_firstPlace_sub (s : Span) (extra : ℕ) :
    (10 : ℚ) ^ s.firstPlace = (10 ^ extra : ℕ) * 10 ^ (s.firstPlace - extra) := by
  rw [Nat.cast_pow, Nat.cast_ofNat, ← zpow_natCast, ← zpow_add₀ (by norm_num)]
  congr 1
  ring

theorem below_lt (hcentre : 0 < s.centre) (extra : ℕ) : s.below (s.firstPlace - extra) < 10 ^ (extra + 1) := by
  have hpow : (0 : ℚ) < 10 ^ (s.firstPlace - extra) := by positivity
  have hlt : (s.below (s.firstPlace - extra) : ℚ) * 10 ^ (s.firstPlace - extra) <
      (10 ^ (extra + 1) : ℕ) * 10 ^ (s.firstPlace - extra) := by
    calc (s.below (s.firstPlace - extra) : ℚ) * 10 ^ (s.firstPlace - extra) ≤ s.middle := (s.below_spec _).1
      _ < 10 ^ (s.firstPlace + 1) := (firstPlace_spec hcentre).2
      _ = (10 ^ (extra + 1) : ℕ) * 10 ^ (s.firstPlace - extra) := by
        rw [zpow_add_one₀ (by norm_num), s.zpow_firstPlace_sub extra, pow_succ]
        push_cast
        ring
  exact_mod_cast lt_of_mul_lt_mul_right hlt hpow.le

/-- What has few digits lies on a coarse grid. Only below the first place of the centre there is more, and that place
itself is nearer to the centre. -/
theorem exists_coarse_step (hcentre : 0 < s.centre) (hmiddle : s.Mem s.middle) {n : ℕ} {j : ℤ}
    (hn : n < 10 ^ (extra + 1)) (hmem : s.Mem (n * 10 ^ j)) :
    ∃ d : ℕ, s.Mem (d * 10 ^ (s.firstPlace - extra)) ∧
      |d * 10 ^ (s.firstPlace - extra) - s.middle| ≤ |n * 10 ^ j - s.middle| := by
  have hfirst := (firstPlace_spec hcentre).1
  rcases lt_or_ge ((n : ℚ) * 10 ^ j) (10 ^ s.firstPlace) with hlt | hge
  · refine ⟨10 ^ extra, ?_, ?_⟩ <;> rw [← s.zpow_firstPlace_sub]
    · exact hmem.between hmiddle hlt.le hfirst
    · rw [abs_of_nonpos (by linarith), abs_of_nonpos (by linarith)]
      linarith
  · have hexponent : s.firstPlace - extra ≤ j := by
      have hlt : (10 : ℚ) ^ s.firstPlace < 10 ^ (extra + 1 + j : ℤ) := by
        calc (10 : ℚ) ^ s.firstPlace ≤ n * 10 ^ j := hge
          _ < (10 ^ (extra + 1) : ℕ) * 10 ^ j := mul_lt_mul_of_pos_right (by exact_mod_cast hn) (by positivity)
          _ = 10 ^ (extra + 1 + j : ℤ) := by
            rw [zpow_add₀ (by norm_num), Nat.cast_pow, Nat.cast_ofNat, ← zpow_natCast]
            norm_cast
      have := (zpow_lt_zpow_iff_right₀ (by norm_num : (1 : ℚ) < 10)).mp hlt
      omega
    have hsteps : ((n * 10 ^ (j - (s.firstPlace - extra)).toNat : ℕ) : ℚ) * 10 ^ (s.firstPlace - extra) = n * 10 ^ j := by
      have hdiff : ((j - (s.firstPlace - extra)).toNat : ℤ) = j - (s.firstPlace - extra) := by omega
      rw [Nat.cast_mul, Nat.cast_pow, Nat.cast_ofNat, mul_assoc, ← zpow_natCast, hdiff, ← zpow_add₀ (by norm_num)]
      congr 2
      ring
    exact ⟨n * 10 ^ (j - (s.firstPlace - extra)).toNat, by rwa [hsteps], by rw [hsteps]⟩

theorem mem_of_range_eq {n a i : ℕ} {before after : List ℕ} (h : List.range n = before ++ a :: after) (hi : i < a) :
    i ∈ before := by
  have hsorted := List.pairwise_lt_range (n := n)
  have ha : a < n := List.mem_range.mp (h ▸ List.mem_append_right _ List.mem_cons_self)
  have hmem : i ∈ before ++ a :: after := h ▸ List.mem_range.mpr (hi.trans ha)
  rw [h, List.pairwise_append, List.pairwise_cons] at hsorted
  rcases List.mem_append.mp hmem with hbefore | hafter
  · exact hbefore
  · rcases List.mem_cons.mp hafter with rfl | hafter
    · exact absurd hi (lt_irrefl _)
    · exact absurd (hsorted.2.1.1 i hafter) hi.le.not_gt

/-- The search stops at the first grid with a step in the span. -/
theorem exists_withDigits_shortest (h : (s.withDigits 16).isSome = true) :
    ∃ extra, s.withDigits extra = some s.shortest ∧ ∀ fewer < extra, s.withDigits fewer = none := by
  unfold shortest
  cases hfind : (List.range 17).findSome? s.withDigits with
  | none =>
    have := List.findSome?_eq_none_iff.mp hfind 16 (by decide)
    rw [this] at h
    cases h
  | some d =>
    obtain ⟨before, extra, after, hrange, hextra, hbefore⟩ := List.findSome?_eq_some_iff.mp hfind
    exact ⟨extra, hextra, fun fewer hfewer => hbefore fewer (mem_of_range_eq hrange hfewer)⟩

theorem mem_of_lt {x : ℚ} (hlow : s.low * 2 ^ s.exponent < x) (hhigh : x < s.high * 2 ^ s.exponent) : s.Mem x := by
  unfold Mem
  split
  · exact ⟨hlow.le, hhigh.le⟩
  · exact ⟨hlow, hhigh⟩

theorem half_step_lt {n : ℕ} (hcentre : 0 < s.centre) (hn : s.centre < 2 * 10 ^ 16 * n) :
    (10 : ℚ) ^ (s.firstPlace - 16) / 2 < n * 2 ^ s.exponent := by
  have hfirst := (firstPlace_spec hcentre).1
  have hpow : (0 : ℚ) < 2 ^ s.exponent := by positivity
  have hstep := s.zpow_firstPlace_sub 16
  have hn' : (s.centre : ℚ) * 2 ^ s.exponent < 2 * 10 ^ 16 * n * 2 ^ s.exponent :=
    mul_lt_mul_of_pos_right (by exact_mod_cast hn) hpow
  unfold middle at hfirst
  rw [hstep] at hfirst
  push_cast at hfirst
  linarith

theorem abs_roundDiv_sub_le_half (s : Span) (k : ℤ) :
    |roundDiv (s.centre * (s.unit k).1) (s.unit k).2 * 10 ^ k - s.middle| ≤ 10 ^ k / 2 := by
  have hnear := (isNearestEven_roundDiv (s.centre * (s.unit k).1) (s.unit_pos k).2).near
  rw [← s.middle_div k] at hnear
  rw [s.abs_steps_sub]
  linarith [mul_le_mul_of_nonneg_right hnear (by positivity : (0 : ℚ) ≤ 10 ^ k)]

/-- Half a step of the grid of seventeen digits does not lead out of the span. -/
theorem isSome_withDigits_sixteen {m : ℕ} {e : ℤ} (hc : Canonical m e) : ((Span.of m e).withDigits 16).isSome = true := by
  have hcentre : 0 < (Span.of m e).centre := Nat.mul_pos (by decide) hc.pos
  have hpos := hc.pos
  have hlt := hc.lt
  have hround := abs_le.mp ((Span.of m e).abs_roundDiv_sub_le_half ((Span.of m e).firstPlace - 16))
  obtain ⟨n, hn, hlow⟩ : ∃ n, (Span.of m e).centre < 2 * 10 ^ 16 * n ∧ (Span.of m e).low + n = (Span.of m e).centre := by
    refine ⟨(Span.of m e).centre - (Span.of m e).low, ?_, ?_⟩ <;> simp only [Span.of] <;> split <;> omega
  have hbelow := half_step_lt hcentre hn
  have hcentre' : (Span.of m e).centre < 2 * 10 ^ 16 * 2 := by
    simp only [Span.of]
    omega
  have habove := half_step_lt hcentre hcentre'
  have hlow' : ((Span.of m e).low : ℚ) + n = (Span.of m e).centre := by exact_mod_cast hlow
  have hhigh : ((Span.of m e).high : ℚ) = (Span.of m e).centre + 2 := by simp [Span.of]
  unfold middle at hround
  unfold withDigits
  cases hnearest : (Span.of m e).nearest? ((Span.of m e).firstPlace - 16) with
  | some d => rfl
  | none =>
    refine absurd (mem_of_lt ?_ ?_) (not_mem_of_nearest?_eq_none (mem_centre hc.pos) hnearest
      (roundDiv ((Span.of m e).centre * ((Span.of m e).unit ((Span.of m e).firstPlace - 16)).1)
        ((Span.of m e).unit ((Span.of m e).firstPlace - 16)).2))
    · rw [← hlow', add_mul] at hround
      linarith
    · rw [hhigh, add_mul]
      push_cast at habove
      linarith

/-- A decimal of the span with at most `extra + 1` digits. No decimal of the span has at most `extra` digits, and none
with at most as many digits as this one has is nearer to the centre. -/
structure IsShortest (s : Span) (extra : ℕ) (d : Decimal) : Prop where
  mem : s.Mem d.value
  digits_lt : d.digits < 10 ^ (extra + 1)
  fewest : ∀ (n : ℕ) (j : ℤ), n < 10 ^ extra → ¬ s.Mem (n * 10 ^ j)
  near : ∀ (n : ℕ) (j : ℤ), n < 10 ^ (extra + 1) → s.Mem (n * 10 ^ j) → |d.value - s.middle| ≤ |n * 10 ^ j - s.middle|

end Span

namespace Decimal

theorem digits_trim_le (d : Decimal) : d.trim.digits ≤ d.digits := by
  induction d using trim.induct with
  | case1 d hzero ih =>
    rw [trim, if_pos hzero]
    exact ih.trans (Nat.div_le_self _ _)
  | case2 d hzero => rw [trim, if_neg hzero]

theorem digits_trim_mod {d : Decimal} (h : d.digits ≠ 0) : d.trim.digits % 10 ≠ 0 := by
  induction d using trim.induct with
  | case1 d hzero ih =>
    rw [trim, if_pos hzero]
    exact ih (by simp only; omega)
  | case2 d hzero =>
    rw [trim, if_neg hzero]
    exact fun hmod => hzero ⟨h, hmod⟩

/-- The shortest decimal of a double does not end with a zero, and is the nearest of those with fewest digits. -/
theorem exists_isShortest_ofBinary {m : ℕ} {e : ℤ} (hc : Canonical m e) :
    (ofBinary m e).digits % 10 ≠ 0 ∧ ∃ extra, (Span.of m e).IsShortest extra (ofBinary m e) := by
  have hcentre : 0 < (Span.of m e).centre := Nat.mul_pos (by decide) hc.pos
  have hmiddle : (Span.of m e).Mem (Span.of m e).middle := Span.mem_centre hc.pos
  have hvalue : (ofBinary m e).value = (Span.of m e).shortest.value := value_trim _
  obtain ⟨extra, hshortest, hfewer⟩ := Span.exists_withDigits_shortest (Span.isSome_withDigits_sixteen hc)
  obtain ⟨d, hd, hdecimal⟩ := Option.map_eq_some_iff.mp hshortest
  obtain ⟨hstep, hle⟩ := Span.isNearestStep_of_nearest? hmiddle hd
  rw [← hdecimal] at hvalue
  have hmem : (Span.of m e).Mem (ofBinary m e).value := hvalue ▸ hstep.mem
  have hpos : d ≠ 0 := by
    rintro rfl
    have := hstep.mem.pos hc.pos
    simp at this
  have hmod : (ofBinary m e).digits % 10 ≠ 0 := digits_trim_mod (by rwa [← hdecimal])
  refine ⟨hmod, extra, hmem, ?_, fun n j hn hmem => ?_, fun n j hn hmem => ?_⟩
  · have htrim : (ofBinary m e).digits ≤ d := (digits_trim_le _).trans_eq (by rw [← hdecimal])
    have hbelow := Span.below_lt hcentre extra
    have hten : 10 ^ (extra + 1) % 10 = 0 := by
      rw [pow_succ]
      exact Nat.mul_mod_left _ _
    refine lt_of_le_of_ne (by omega) fun heq => hmod ?_
    rw [heq, hten]
  · cases extra with
    | zero =>
      have := hmem.pos hc.pos
      simp [Nat.lt_one_iff.mp hn] at this
    | succ fewer =>
      obtain ⟨d', hd', -⟩ := Span.exists_coarse_step hcentre hmiddle hn hmem
      exact Span.not_mem_of_nearest?_eq_none hmiddle (Option.map_eq_none_iff.mp (hfewer fewer (Nat.lt_succ_self _))) d' hd'
  · obtain ⟨d', hd', hnear⟩ := Span.exists_coarse_step hcentre hmiddle hn hmem
    rw [hvalue]
    exact (hstep.near d' hd').trans hnear

end Decimal

end TalkingCalculator
