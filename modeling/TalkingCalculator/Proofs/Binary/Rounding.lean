import TalkingCalculator.Decimal.Fixed
import TalkingCalculator.Proofs.Binary.Packing

/-!
# Rounding to a double

A positive rational has a scale, the exponent of the last place of the doubles around it. In units of that
place it rounds to the nearest natural number, the even one of two, and a mantissa that outgrows its places
moves to the next scale. The rounding of the floating-point operations is this one.
-/
namespace TalkingCalculator

open Float.Model (Format UnpackedFloat totalExponent)
open Float.Model.UnpackedFloat

/-- The natural number nearest to `y`, the even one of two. -/
structure IsNearestEven (q : ℕ) (y : ℚ) : Prop where
  near : |y - q| ≤ 1 / 2
  even : |y - q| = 1 / 2 → q % 2 = 0

namespace IsNearestEven

theorem unique {q q' : ℕ} {y : ℚ} (h : IsNearestEven q y) (h' : IsNearestEven q' y) : q = q' := by
  by_contra hne
  wlog hlt : q < q' generalizing q q'
  · exact this h' h (Ne.symm hne) (by omega)
  have hnear := abs_le.mp h.near
  have hnear' := abs_le.mp h'.near
  have hle : (q : ℚ) + 1 ≤ q' := by exact_mod_cast hlt
  have hq : y - q = 1 / 2 := by linarith
  have hq' : y - q' = -(1 / 2) := by linarith
  have heq : (q' : ℚ) = (q + 1 : ℕ) := by
    push_cast
    linarith
  have heven := h.even (by rw [hq, abs_of_pos (by norm_num)])
  have heven' := h'.even (by rw [hq', abs_neg, abs_of_pos (by norm_num)])
  have : q' = q + 1 := by exact_mod_cast heq
  omega

theorem floor_add (b : ℕ) {f : ℚ} (h0 : 0 ≤ f) (h1 : f < 1) :
    IsNearestEven (if f < 1 / 2 ∨ (f = 1 / 2 ∧ b % 2 = 0) then b else b + 1) (b + f) := by
  split
  · rename_i hlow
    have habs : |(b : ℚ) + f - b| = f := by rw [add_sub_cancel_left, abs_of_nonneg h0]
    rcases hlow with hlt | ⟨heq, heven⟩
    · exact ⟨by rw [habs]; exact hlt.le, fun hhalf => absurd (habs.symm.trans hhalf) hlt.ne⟩
    · exact ⟨by rw [habs, heq], fun _ => heven⟩
  · rename_i hhigh
    push Not at hhigh
    have habs : |(b : ℚ) + f - (b + 1 : ℕ)| = 1 - f := by
      rw [abs_sub_comm, abs_of_nonneg (by push_cast; linarith)]
      push_cast
      ring
    refine ⟨by rw [habs]; linarith, fun hhalf => ?_⟩
    rw [habs] at hhalf
    have := hhigh.2 (by linarith)
    omega

end IsNearestEven

theorem isNearestEven_roundDiv (n : ℕ) {d : ℕ} (hd : 0 < d) : IsNearestEven (roundDiv n d) (n / d) := by
  have hd' : (0 : ℚ) < d := by exact_mod_cast hd
  have hsplit : (n : ℚ) / d = (n / d : ℕ) + (n % d : ℕ) / d := by
    rw [div_eq_iff hd'.ne', add_mul, div_mul_cancel₀ _ hd'.ne']
    exact_mod_cast (Nat.div_add_mod' n d).symm
  have hlt : ((n % d : ℕ) : ℚ) / d < 1 / 2 ↔ 2 * (n % d) < d := by
    rw [div_lt_div_iff₀ hd' two_pos, one_mul, mul_comm]
    exact_mod_cast Iff.rfl
  have heq : ((n % d : ℕ) : ℚ) / d = 1 / 2 ↔ 2 * (n % d) = d := by
    rw [div_eq_div_iff hd'.ne' two_ne_zero, one_mul, mul_comm]
    exact_mod_cast Iff.rfl
  have h0 : (0 : ℚ) ≤ (n % d : ℕ) / d := by positivity
  have h1 : ((n % d : ℕ) : ℚ) / d < 1 := by
    rw [div_lt_one hd']
    exact_mod_cast Nat.mod_lt n hd
  have hfloor := IsNearestEven.floor_add (n / d) h0 h1
  rw [hsplit]
  simpa only [roundDiv, hlt, heq] using hfloor

/-- The doubles around `x` have a last place of `2 ^ t`. -/
structure IsScale (x : ℚ) (t : ℤ) : Prop where
  le_scale : -1074 ≤ t
  lt : x < 2 ^ (53 + t)
  le : 2 ^ (52 + t) ≤ x ∨ t = -1074

theorem two_zpow_lt_iff {a b : ℤ} : (2 : ℚ) ^ a < 2 ^ b ↔ a < b :=
  zpow_lt_zpow_iff_right₀ one_lt_two

namespace IsScale

theorem unique {x : ℚ} {t t' : ℤ} (h : IsScale x t) (h' : IsScale x t') : t = t' := by
  by_contra hne
  wlog hlt : t < t' generalizing t t'
  · exact this h' h (Ne.symm hne) (by omega)
  have hle : (2 : ℚ) ^ (52 + t') ≤ x := h'.le.resolve_right (by have := h.le_scale; omega)
  have := two_zpow_lt_iff.mp (hle.trans_lt h.lt)
  omega

theorem of_log {x : ℚ} (hx : 0 < x) : IsScale x (max (Int.log 2 x - 52) (-1074)) where
  le_scale := le_max_right _ _
  lt := by
    refine (Int.lt_zpow_succ_log_self one_lt_two x).trans_le ?_
    exact zpow_le_zpow_right₀ one_le_two (by omega)
  le := by
    by_cases hlog : Int.log 2 x - 52 ≤ -1074
    · exact Or.inr (max_eq_right hlog)
    · left
      rw [max_eq_left (by omega), show 52 + (Int.log 2 x - 52) = Int.log 2 x by ring]
      exact Int.zpow_log_le_self one_lt_two hx

end IsScale

namespace Binary

def assemble (s : Sign) (m : ℕ) (e : ℤ) : UnpackedFloat :=
  if h : m = 0 then .zero s else .finite s m e (Nat.pos_of_ne_zero h)

/-- The double of a mantissa that was rounded at scale `t`, up to `2 ^ 53`. -/
def settle (s : Sign) (q : ℕ) (t : ℤ) : UnpackedFloat :=
  if q < 2 ^ 53 then assemble s q t else assemble s (2 ^ 52) (t + 1)

/-- The double nearest to `x`, which is not negative, with the sign `s`. -/
def nearest (s : Sign) (x : ℚ) : Float :=
  let t := max (Int.log 2 x - 52) (-1074)
  ofUnpacked (settle s (roundDiv (x / 2 ^ t).num.toNat (x / 2 ^ t).den) t)

theorem nearest_eq {s : Sign} {x : ℚ} {q : ℕ} {t : ℤ} (hx : 0 < x) (ht : IsScale x t)
    (hq : IsNearestEven q (x / 2 ^ t)) : nearest s x = ofUnpacked (settle s q t) := by
  have hscale : max (Int.log 2 x - 52) (-1074) = t := (IsScale.of_log hx).unique ht
  unfold nearest
  simp only [hscale]
  have hnum : (((x / 2 ^ t).num.toNat : ℕ) : ℚ) / (x / 2 ^ t).den = x / 2 ^ t := by
    have hpos : 0 ≤ (x / 2 ^ t).num := Rat.num_nonneg.mpr (by positivity)
    calc (((x / 2 ^ t).num.toNat : ℕ) : ℚ) / (x / 2 ^ t).den
        = ((x / 2 ^ t).num : ℚ) / (x / 2 ^ t).den := by
          rw [← Int.cast_natCast (x / 2 ^ t).num.toNat, Int.toNat_of_nonneg hpos]
      _ = x / 2 ^ t := Rat.num_div_den _
  have hround := isNearestEven_roundDiv (x / 2 ^ t).num.toNat (x / 2 ^ t).den_pos
  rw [hnum] at hround
  rw [hround.unique hq]

end Binary

end TalkingCalculator
