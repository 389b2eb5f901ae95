import TalkingCalculator.Proofs.Binary.Opposites
import TalkingCalculator.Proofs.Binary.Propagation
import TalkingCalculator.Proofs.Equation.Operations

/-!
# Symmetries of the solver

The opposite equation has the same roots, and with the opposite of the second coefficient the roots are opposite. The
solver keeps to both, whatever is rounded on the way: the discriminant is the same double in all three equations, and
the numerators of the roots are opposites, but for the signs of zeros. Where two roots are told apart by the sign before
the square root, they change places.
-/
namespace TalkingCalculator

open Binary

theorem isFinite_neg_eq (x : Float) : (-x).isFinite = x.isFinite :=
  Bool.eq_iff_iff.mpr ⟨isFinite_of_neg, isFinite_neg⟩

namespace Roots

inductive Related (R : Float → Float → Prop) : Roots → Roots → Prop
  | degenerate : Related R .degenerate .degenerate
  | twoReal {x₁ x₂ y₁ y₂ : Float} (h₁ : R x₁ y₁) (h₂ : R x₂ y₂) : Related R (.twoReal x₁ x₂) (.twoReal y₁ y₂)
  | oneReal {x y : Float} (h : R x y) : Related R (.oneReal x) (.oneReal y)
  | complex {x₁ x₂ y₁ y₂ : Float} (hre : R x₁ y₁) (him : R x₂ y₂) : Related R (.complex x₁ x₂) (.complex y₁ y₂)

def exchanged : Roots → Roots
  | degenerate => degenerate
  | twoReal x₁ x₂ => twoReal x₂ x₁
  | oneReal x => oneReal x
  | complex re im => complex re (-im)

/-- The opposite roots, in the order in which the solver finds them. -/
def mirrored : Roots → Roots
  | degenerate => degenerate
  | twoReal x₁ x₂ => twoReal (-x₂) (-x₁)
  | oneReal x => oneReal (-x)
  | complex re im => complex (-re) im

def negated : Roots → Roots
  | degenerate => degenerate
  | twoReal x₁ x₂ => twoReal (-x₁) (-x₂)
  | oneReal x => oneReal (-x)
  | complex re im => complex (-re) (-im)

variable {r r' : Roots}

theorem negated_mirrored (r : Roots) : r.mirrored.negated = r.exchanged := by
  cases r with
  | degenerate => rfl
  | twoReal x₁ x₂ => rw [mirrored, negated, Binary.neg_neg, Binary.neg_neg, exchanged]
  | oneReal x => rw [mirrored, negated, Binary.neg_neg, exchanged]
  | complex re im => rw [mirrored, negated, Binary.neg_neg, exchanged]

theorem Related.negated (h : Related Alike r r') : Related Alike r.negated r'.negated := by
  cases h with
  | degenerate => exact .degenerate
  | twoReal h₁ h₂ => exact .twoReal h₁.neg h₂.neg
  | oneReal h => exact .oneReal h.neg
  | complex hre him => exact .complex hre.neg him.neg

theorem Related.all_isFinite (h : Related Alike r r') : r.values.all Float.isFinite = r'.values.all Float.isFinite := by
  cases h with
  | degenerate => rfl
  | twoReal h₁ h₂ | complex h₁ h₂ => simp only [values, List.all_cons, List.all_nil, h₁.isFinite_eq, h₂.isFinite_eq]
  | oneReal h => simp only [values, List.all_cons, List.all_nil, h.isFinite_eq]

/-- Finite numbers that are the same but for the signs of zeros compare as equal. -/
theorem Related.of_isFinite (h : Related Alike r r') (hr : r.values.all Float.isFinite = true) :
    Related (fun x y => (x == y) = true) r r' := by
  rw [List.all_eq_true] at hr
  cases h with
  | degenerate => exact .degenerate
  | twoReal h₁ h₂ => exact .twoReal (h₁.beq (hr _ (by simp [values]))) (h₂.beq (hr _ (by simp [values])))
  | oneReal h => exact .oneReal (h.beq (hr _ (by simp [values])))
  | complex hre him => exact .complex (hre.beq (hr _ (by simp [values]))) (him.beq (hr _ (by simp [values])))

theorem all_isFinite_mirrored (r : Roots) : r.mirrored.values.all Float.isFinite = r.values.all Float.isFinite := by
  cases r with
  | degenerate => rfl
  | twoReal x₁ x₂ => simp [mirrored, values, isFinite_neg_eq, Bool.and_comm]
  | oneReal x => simp [mirrored, values, isFinite_neg_eq]
  | complex re im => simp [mirrored, values, isFinite_neg_eq]

theorem all_isFinite_exchanged (r : Roots) : r.exchanged.values.all Float.isFinite = r.values.all Float.isFinite := by
  cases r with
  | degenerate => rfl
  | twoReal x₁ x₂ => simp [exchanged, values, Bool.and_comm]
  | oneReal x => rfl
  | complex re im => simp [exchanged, values, isFinite_neg_eq]

/-- All numbers are divided by twice the first coefficient. -/
theorem ofDiscriminant_neg (a b d : Float) : ofDiscriminant (-a) b d = (ofDiscriminant a b d).negated := by
  unfold ofDiscriminant
  simp only [Binary.mul_neg, Binary.div_neg]
  split_ifs <;> rfl

/-- The numerators of the one equation are the opposites of those of the other, but for the signs of zeros. -/
theorem ofDiscriminant_neg_linear (a b d : Float) :
    Related Alike (ofDiscriminant a (-b) d) (ofDiscriminant a b d).mirrored := by
  unfold ofDiscriminant
  split_ifs with hpos hzero
  · refine .twoReal ?_ ?_
    · rw [← Binary.neg_div]
      exact (neg_add_alike _ _).div _
    · rw [← Binary.neg_div, Binary.neg_neg]
      have halike := (neg_add_alike b d.sqrt).neg
      rw [Binary.neg_neg] at halike
      exact halike.symm.div _
  · refine .oneReal ?_
    rw [Binary.neg_div (-b)]
    exact .refl _
  · refine .complex ?_ (.refl _)
    rw [Binary.neg_div (-b)]
    exact .refl _

theorem ofDiscriminant_neg_all (a b d : Float) :
    Related Alike (ofDiscriminant (-a) (-b) d) (ofDiscriminant a b d).exchanged := by
  rw [ofDiscriminant_neg, ← negated_mirrored]
  exact (ofDiscriminant_neg_linear a b d).negated

end Roots

inductive SameOutcome : Except SolverError Roots → Except SolverError Roots → Prop
  | error (e e' : SolverError) : SameOutcome (.error e) (.error e')
  | ok {r r' : Roots} (h : Roots.Related (fun x y => (x == y) = true) r r') : SameOutcome (.ok r) (.ok r')

theorem discriminant_neg_linear (a b c : Float) : discriminant a (-b) c = discriminant a b c := by
  unfold discriminant
  rw [Binary.neg_mul, Binary.mul_neg, Binary.neg_neg]

theorem discriminant_neg_all (a b c : Float) : discriminant (-a) (-b) (-c) = discriminant a b c := by
  rw [discriminant_neg_linear]
  unfold discriminant
  rw [Binary.mul_neg, Binary.mul_neg, Binary.neg_mul, Binary.neg_neg]

/-- Equations with the same discriminant pass the same checks, and their outcomes are related as their roots are. -/
theorem solve_sameOutcome {a b c a' b' c' : Float} {f : Roots → Roots} (ha : a'.isFinite = a.isFinite)
    (hb : b'.isFinite = b.isFinite) (hc : c'.isFinite = c.isFinite) (hzero : (a' == 0.0) = (a == 0.0))
    (hd : discriminant a' b' c' = discriminant a b c)
    (hroots : ∀ d, Roots.Related Alike (.ofDiscriminant a' b' d) (f (.ofDiscriminant a b d)))
    (hfinite : ∀ r, (f r).values.all Float.isFinite = r.values.all Float.isFinite)
    (hdegenerate : f .degenerate = .degenerate) :
    SameOutcome (solve a' b' c') ((solve a b c).map f) := by
  have hall := (hroots (discriminant a b c)).all_isFinite.trans (hfinite _)
  unfold solve
  simp only [ha, hb, hc, hzero, hd, hall]
  split_ifs with h₁ h₂ h₃ h₄
  · exact .error _ _
  · rw [Except.map, hdegenerate]
    exact .ok .degenerate
  · exact .error _ _
  · exact .ok ((hroots _).of_isFinite (hall.trans h₄))
  · exact .error _ _

/-- The opposite equation fails where the equation does, and has its roots otherwise, in the other order. With the
opposite of the second coefficient it fails where the equation does, and has the opposite roots otherwise. -/
theorem solve_symmetries (a b c : Float) :
    SameOutcome (solve (-a) (-b) (-c)) ((solve a b c).map Roots.exchanged) ∧
      SameOutcome (solve a (-b) c) ((solve a b c).map Roots.mirrored) :=
  ⟨solve_sameOutcome (isFinite_neg_eq a) (isFinite_neg_eq b) (isFinite_neg_eq c) (neg_beq_zero a)
      (discriminant_neg_all a b c) (Roots.ofDiscriminant_neg_all a b) Roots.all_isFinite_exchanged rfl,
    solve_sameOutcome rfl (isFinite_neg_eq b) rfl rfl (discriminant_neg_linear a b c)
      (Roots.ofDiscriminant_neg_linear a b) Roots.all_isFinite_mirrored rfl⟩

end TalkingCalculator
