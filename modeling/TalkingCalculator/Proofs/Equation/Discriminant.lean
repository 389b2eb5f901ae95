import TalkingCalculator.Equation.Roots
import TalkingCalculator.Proofs.Binary.Products

/-!
# The kind of the roots

The discriminant is computed over doubles: its two products are rounded, and the sign of their difference, which no
rounding changes, decides the kind of the roots. Where the products round to the same double, the equation has one
root, whatever the exact discriminant is. Everywhere else the kind is that of the exact one.
-/
namespace TalkingCalculator

open Binary

variable {a b c : Float} {r : Roots}

def exactDiscriminant (a b c : Float) : ℚ :=
  exactValue b ^ 2 - 4 * exactValue a * exactValue c

/-- The sign of the discriminant that has roots of this kind; an equation without a square has none. -/
def Roots.discriminantSign? : Roots → Option SignType
  | degenerate => none
  | twoReal _ _ => some 1
  | oneReal _ => some 0
  | complex _ _ => some (-1)

structure IsSolved (a b c : Float) (r : Roots) : Prop where
  finite_a : a.isFinite = true
  finite_b : b.isFinite = true
  finite_c : c.isFinite = true
  finite_discriminant : (discriminant a b c).isFinite = true
  roots : r = .ofDiscriminant a b (discriminant a b c)
  finite_roots : r.values.all Float.isFinite = true

theorem isSolved_of_ok (ha : (a == 0.0) = false) (h : solve a b c = .ok r) : IsSolved a b c r := by
  unfold solve at h
  simp only [ha, Bool.false_eq_true, if_false] at h
  split_ifs at h with hfinite hd hr
  rw [Bool.not_eq_true, Bool.not_eq_false'] at hfinite hd
  rw [Bool.and_eq_true, Bool.and_eq_true] at hfinite
  obtain ⟨⟨hfa, hfb⟩, hfc⟩ := hfinite
  cases h
  exact ⟨hfa, hfb, hfc, hd, rfl, hr⟩

theorem discriminantSign?_ofDiscriminant {x y : Float} (hx : x.isFinite = true) (hy : y.isFinite = true) :
    (Roots.ofDiscriminant a b (x - y)).discriminantSign? = some (SignType.sign (exactValue x - exactValue y)) := by
  obtain ⟨hpos, hzero⟩ := compare_sub hx hy
  unfold Roots.ofDiscriminant
  split_ifs with h₁ h₂
  · rw [sign_pos (sub_pos.mpr (hpos.mp h₁))]
    rfl
  · rw [sub_eq_zero.mpr (hzero.mp h₂), sign_zero]
    rfl
  · have hlt : exactValue x < exactValue y := lt_of_le_of_ne (not_lt.mp (mt hpos.mpr h₁)) (mt hzero.mpr h₂)
    rw [sign_neg (sub_neg.mpr hlt)]
    rfl

/-- With the two products rounded to `p` and `q`, the kind of the roots is that of their difference. It is the kind of
the exact discriminant unless that is not zero and `p` and `q` are the same. -/
theorem solve_discriminantSign? (ha : (a == 0.0) = false) (h : solve a b c = .ok r) :
    ∃ p q, RoundsTo (exactValue b ^ 2) p ∧ RoundsTo (4 * exactValue a * exactValue c) q ∧
      r.discriminantSign? = some (SignType.sign (p - q)) ∧
      (r.discriminantSign? = some (SignType.sign (exactDiscriminant a b c)) ↔ (p = q → exactDiscriminant a b c = 0)) ∧
      (r.discriminantSign? = some 1 → 0 < exactDiscriminant a b c) ∧
      (r.discriminantSign? = some (-1) → exactDiscriminant a b c < 0) ∧
      (exactDiscriminant a b c = 0 → r.discriminantSign? = some 0) := by
  have hsolved := isSolved_of_ok ha h
  obtain ⟨hsquare, hproduct⟩ := isFinite_of_sub hsolved.finite_discriminant
  obtain ⟨hfour, -⟩ := isFinite_of_mul hproduct
  have hp := roundsTo_mul hsolved.finite_b hsolved.finite_b hsquare
  have hq := roundsTo_mul hfour hsolved.finite_c hproduct
  rw [exactValue_four_mul hsolved.finite_a hfour] at hq
  rw [← sq] at hp
  have hkind : r.discriminantSign? = some (SignType.sign (exactValue (b * b) - exactValue (4.0 * a * c))) := by
    rw [hsolved.roots]
    exact discriminantSign?_ofDiscriminant hsquare hproduct
  generalize exactValue (b * b) = p at hp hkind
  generalize exactValue (4.0 * a * c) = q at hq hkind
  refine ⟨p, q, hp, hq, hkind, ?_⟩
  rw [hkind, Option.some_inj, Option.some_inj, Option.some_inj, Option.some_inj]
  unfold exactDiscriminant
  by_cases hpq : p = q
  · subst hpq
    rw [sub_self, sign_zero]
    exact ⟨⟨fun hsign _ => sign_eq_zero_iff.mp hsign.symm, fun hzero => (sign_eq_zero_iff.mpr (hzero rfl)).symm⟩,
      nofun, nofun, fun _ => rfl⟩
  · rw [hp.sign_sub_of_ne hq hpq]
    exact ⟨iff_of_true rfl fun heq => absurd heq hpq, sign_eq_one_iff.mp, sign_eq_neg_one_iff.mp, sign_eq_zero_iff.mpr⟩

/-- Here each of the three coefficients and both products are rounded. -/
theorem solve_tenths_discriminantSign? :
    ∃ r, solve 0.1 0.7 0.3 = .ok r ∧ r.discriminantSign? = some 1 ∧ 0 < exactDiscriminant 0.1 0.7 0.3 := by
  have hsolve : solve 0.1 0.7 0.3 = .ok (.ofDiscriminant 0.1 0.7 (discriminant 0.1 0.7 0.3)) := by decide +kernel
  have hkind : (Roots.ofDiscriminant 0.1 0.7 (discriminant 0.1 0.7 0.3)).discriminantSign? = some 1 := by decide +kernel
  obtain ⟨p, q, -, -, -, -, hpos, -⟩ := solve_discriminantSign? (by decide +kernel) hsolve
  exact ⟨_, hsolve, hkind, hpos hkind⟩

/-- Near the largest numbers whose squares are exact, a discriminant of one is lost. -/
theorem discriminantSign?_ne_sign_exactDiscriminant :
    ¬ ∀ (a b c : Float) (r : Roots), (a == 0.0) = false → solve a b c = .ok r →
      r.discriminantSign? = some (SignType.sign (exactDiscriminant a b c)) := by
  intro h
  have hsolve : solve 1.0 134217729.0 4503599694479360.0 = .ok (.oneReal (-67108864.5)) := by decide +kernel
  have hexact : exactDiscriminant 1.0 134217729.0 4503599694479360.0 = 1 := by decide +kernel
  have hkind := h _ _ _ _ (by decide +kernel) hsolve
  rw [hexact, sign_one] at hkind
  exact absurd hkind (by decide)

end TalkingCalculator
