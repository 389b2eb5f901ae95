import TalkingCalculator.Proofs.Binary.Products

/-!
# Propagation

No operation makes a number out of NaN. An infinity is lost in one place only: what is finite divided by it is zero.
Every other operation on an infinity gives an infinity or NaN.
-/
namespace TalkingCalculator

open Float.Model (Format UnpackedFloat)
open Float.Model.UnpackedFloat

namespace Binary

variable {x y : Float}

theorem isFinite_of_add (hxy : (x + y).isFinite = true) : x.isFinite = true ∧ y.isFinite = true := by
  replace hxy := isFinite_of_isFinite_ofUnpacked hxy
  change x.toModel.unpack.isFinite = true ∧ y.toModel.unpack.isFinite = true
  generalize x.toModel.unpack = u at hxy ⊢
  generalize y.toModel.unpack = w at hxy ⊢
  cases u with
  | notANumber => cases hxy
  | infinity s =>
    cases w with
    | infinity t => cases s <;> cases t <;> cases hxy
    | notANumber | zero | finite => cases hxy
  | zero | finite =>
    cases w with
    | notANumber | infinity => cases hxy
    | zero | finite => exact ⟨rfl, rfl⟩

/-- A quotient is finite only if what was divided is, and then what it was divided by is finite or infinite. -/
theorem isFinite_of_div (hxy : (x / y).isFinite = true) :
    x.isFinite = true ∧ (y.isInf = false → y.isFinite = true) := by
  replace hxy := isFinite_of_isFinite_ofUnpacked hxy
  change x.toModel.unpack.isFinite = true ∧ (y.toModel.unpack.isInf = false → y.toModel.unpack.isFinite = true)
  generalize x.toModel.unpack = u at hxy ⊢
  generalize y.toModel.unpack = w at hxy ⊢
  cases u with
  | notANumber => cases hxy
  | infinity => cases w <;> cases hxy
  | zero | finite =>
    cases w with
    | notANumber => cases hxy
    | infinity => exact ⟨rfl, fun h => by cases h⟩
    | zero | finite => exact ⟨rfl, fun _ => rfl⟩

theorem isFinite_of_neg (hx : (-x).isFinite = true) : x.isFinite = true := by
  replace hx := isFinite_of_isFinite_ofUnpacked hx
  change x.toModel.unpack.isFinite = true
  generalize x.toModel.unpack = u at hx ⊢
  cases u with
  | notANumber | infinity => cases hx
  | zero | finite => rfl

/-- An operation that gives NaN for NaN on either side gives a number for numbers only. -/
theorem isNaN_of_operation {op : UnpackedFloat → UnpackedFloat → UnpackedFloat}
    (hleft : ∀ w, op .notANumber w = .notANumber) (hright : ∀ u, op u .notANumber = .notANumber)
    (h : (ofUnpacked (op x.toModel.unpack y.toModel.unpack)).isNaN = false) : x.isNaN = false ∧ y.isNaN = false := by
  change x.toModel.unpack.isNaN = false ∧ y.toModel.unpack.isNaN = false
  generalize x.toModel.unpack = u at h ⊢
  generalize y.toModel.unpack = w at h ⊢
  cases u with
  | notANumber =>
    rw [hleft] at h
    exact absurd h (by decide)
  | infinity | zero | finite =>
    cases w with
    | notANumber =>
      rw [hright] at h
      exact absurd h (by decide)
    | infinity | zero | finite => exact ⟨rfl, rfl⟩

theorem isNaN_of_add (hxy : (x + y).isNaN = false) : x.isNaN = false ∧ y.isNaN = false :=
  isNaN_of_operation (fun _ => rfl) (fun u => by cases u <;> rfl) hxy

theorem isNaN_of_sub (hxy : (x - y).isNaN = false) : x.isNaN = false ∧ y.isNaN = false :=
  isNaN_of_operation (fun _ => rfl) (fun u => by cases u <;> rfl) hxy

theorem isNaN_of_mul (hxy : (x * y).isNaN = false) : x.isNaN = false ∧ y.isNaN = false :=
  isNaN_of_operation (fun _ => rfl) (fun u => by cases u <;> rfl) hxy

theorem isNaN_of_div (hxy : (x / y).isNaN = false) : x.isNaN = false ∧ y.isNaN = false :=
  isNaN_of_operation (fun _ => rfl) (fun u => by cases u <;> rfl) hxy

theorem isNaN_of_neg (hx : (-x).isNaN = false) : x.isNaN = false := by
  change x.toModel.unpack.isNaN = false
  change (ofUnpacked x.toModel.unpack.neg).isNaN = false at hx
  generalize x.toModel.unpack = u at hx ⊢
  cases u with
  | notANumber => exact absurd hx (by decide)
  | infinity | zero | finite => rfl

/-- What is neither infinite nor NaN is finite. -/
theorem isFinite_iff : x.isFinite = true ↔ x.isInf = false ∧ x.isNaN = false := by
  change x.toModel.unpack.isFinite = true ↔ x.toModel.unpack.isInf = false ∧ x.toModel.unpack.isNaN = false
  generalize x.toModel.unpack = u
  cases u <;> simp [UnpackedFloat.isFinite, UnpackedFloat.isInf, UnpackedFloat.isNaN]

end Binary

end TalkingCalculator
