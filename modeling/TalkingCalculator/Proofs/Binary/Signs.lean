import TalkingCalculator.Proofs.Binary.Comparison

/-!
# Signs

Every double but NaN has a sign, the zeros and the infinities too. The sign survives packing, whatever the mantissa
and the exponent, so that the sign of a result is that which the operation gives it, however it was rounded. The
signs of a product and of a quotient are those of its operands multiplied.
-/
namespace TalkingCalculator

open Float.Model (Format UnpackedFloat)
open Float.Model.UnpackedFloat

namespace Binary

def unpackedSign? : UnpackedFloat → Option Sign
  | .notANumber => none
  | .infinity s | .zero s | .finite s _ _ _ => some s

def sign? (x : Float) : Option Sign :=
  unpackedSign? x.toModel.unpack

variable {x y : Float} {s t : Sign} {m : ℕ} {e : ℤ}

/-- Unless all bits of the exponent are set, what is unpacked has the sign that was packed. -/
theorem unpackedSign?_packComponents {exponent : BitVec 11} (hexponent : exponent ≠ -1#11) (mantissa : BitVec 52) :
    unpackedSign? (unpack Format.binary64 (packComponents Format.binary64 s exponent mantissa)) = some s := by
  unfold unpack
  simp only [unpackMantissa_packComponents, unpackExponent_packComponents, unpackSign_packComponents,
    Sign.ofBitVec_toBitVec]
  rw [if_neg hexponent]
  split
  · split <;> rfl
  · rfl

theorem sign?_ofUnpacked (u : UnpackedFloat) : sign? (ofUnpacked u) = unpackedSign? u := by
  cases u with
  | notANumber => rfl
  | infinity s => cases s <;> rfl
  | zero s => cases s <;> rfl
  | finite s m e h =>
    change unpackedSign? (unpack Format.binary64 (pack Format.binary64 (.finite s m e h))) = some s
    simp only [pack]
    split
    · cases s <;> rfl
    · rename_i hmax
      split
      · refine unpackedSign?_packComponents ?_ _
        intro heq
        have := congrArg BitVec.toNat heq
        simp only [BitVec.toNat_ofNat, BitVec.toNat_neg] at this
        omega
      · exact unpackedSign?_packComponents (by decide) _

theorem unpackedSign?_roundWithAccuracy (accuracy : Accuracy) :
    unpackedSign? (roundWithAccuracy Format.binary64 s m e accuracy) = some s := by
  unfold roundWithAccuracy
  dsimp only
  split <;> rfl

theorem sign?_of_not_isNaN {u : UnpackedFloat} (hu : u = .notANumber ∨ unpackedSign? u = some s)
    (hnumber : (ofUnpacked u).isNaN = false) : sign? (ofUnpacked u) = some s := by
  rcases hu with rfl | hu
  · exact absurd hnumber (by decide)
  · rw [sign?_ofUnpacked, hu]

theorem exists_sign (hx : x.isFinite = true) : ∃ s, sign? x = some s := by
  rcases eq_ofUnpacked_of_isFinite hx with ⟨s, rfl⟩ | ⟨s, m, e, h, -, rfl⟩
  · exact ⟨s, sign?_ofUnpacked _⟩
  · exact ⟨s, sign?_ofUnpacked _⟩

/-- Only NaN has no sign. -/
theorem isNaN_of_sign? (hx : sign? x = some s) : x.isNaN = false := by
  change unpackedSign? x.toModel.unpack = some s at hx
  change x.toModel.unpack.isNaN = false
  generalize x.toModel.unpack = u at hx ⊢
  cases u with
  | notANumber => cases hx
  | _ => rfl

theorem isNaN_of_isFinite (hx : x.isFinite = true) : x.isNaN = false := by
  obtain ⟨s, hs⟩ := exists_sign hx
  exact isNaN_of_sign? hs

theorem isInf_of_isFinite (hx : x.isFinite = true) : x.isInf = false := by
  change x.toModel.unpack.isFinite = true at hx
  change x.toModel.unpack.isInf = false
  generalize x.toModel.unpack = u at hx ⊢
  cases u with
  | infinity s => cases hx
  | _ => rfl

section Unpacked

variable {u w : UnpackedFloat}

theorem unpackedSign?_neg (hu : unpackedSign? u = some s) : unpackedSign? u.neg = some (-s) := by
  cases u with
  | notANumber => cases hu
  | _ =>
    cases hu
    rfl

/-- A product of finite numbers is not NaN, though it may be infinite when it is rounded. -/
theorem unpackedSign?_mul (huf : u.isFinite = true) (hwf : w.isFinite = true) (hu : unpackedSign? u = some s)
    (hw : unpackedSign? w = some t) : unpackedSign? (UnpackedFloat.mul Format.binary64 u w) = some (s * t) := by
  cases u with
  | notANumber | infinity => cases huf
  | zero =>
    cases hu
    cases w with
    | notANumber | infinity => cases hwf
    | zero | finite =>
      cases hw
      rfl
  | finite =>
    cases hu
    cases w with
    | notANumber | infinity => cases hwf
    | zero =>
      cases hw
      rfl
    | finite =>
      cases hw
      exact unpackedSign?_roundWithAccuracy _

/-- The infinities have no quotient, and neither have the zeros. -/
theorem unpackedSign?_div (hu : unpackedSign? u = some s) (hw : unpackedSign? w = some t) :
    UnpackedFloat.div Format.binary64 u w = .notANumber ∨
      unpackedSign? (UnpackedFloat.div Format.binary64 u w) = some (s / t) := by
  cases u with
  | notANumber => cases hu
  | infinity =>
    cases hu
    cases w with
    | notANumber => cases hw
    | infinity => exact Or.inl rfl
    | zero | finite =>
      cases hw
      exact Or.inr rfl
  | zero =>
    cases hu
    cases w with
    | notANumber => cases hw
    | zero => exact Or.inl rfl
    | infinity | finite =>
      cases hw
      exact Or.inr rfl
  | finite =>
    cases hu
    cases w with
    | notANumber => cases hw
    | infinity | zero =>
      cases hw
      exact Or.inr rfl
    | finite =>
      cases hw
      exact Or.inr (unpackedSign?_roundWithAccuracy _)

/-- The root of what is not negative is not negative. -/
theorem unpackedSign?_sqrt (hu : unpackedSign? u = some .positive) :
    unpackedSign? (UnpackedFloat.sqrt Format.binary64 u) = some .positive := by
  cases u with
  | notANumber => cases hu
  | infinity | zero =>
    cases hu
    rfl
  | finite =>
    cases hu
    exact unpackedSign?_roundWithAccuracy _

end Unpacked

theorem sign?_neg (hx : sign? x = some s) : sign? (-x) = some (-s) :=
  (sign?_ofUnpacked _).trans (unpackedSign?_neg hx)

theorem sign?_mul (hxf : x.isFinite = true) (hyf : y.isFinite = true) (hx : sign? x = some s) (hy : sign? y = some t) :
    sign? (x * y) = some (s * t) :=
  (sign?_ofUnpacked _).trans (unpackedSign?_mul hxf hyf hx hy)

theorem sign?_div (hx : sign? x = some s) (hy : sign? y = some t) (hxy : (x / y).isNaN = false) :
    sign? (x / y) = some (s / t) :=
  sign?_of_not_isNaN (unpackedSign?_div hx hy) hxy

theorem sign?_sqrt (hx : sign? x = some .positive) : sign? x.sqrt = some .positive :=
  (sign?_ofUnpacked _).trans (unpackedSign?_sqrt hx)

/-- Above zero lie the doubles with a positive sign that are not zero. -/
theorem zero_lt_iff : 0.0 < x ↔ sign? x = some .positive ∧ (x == 0.0) = false := by
  rw [lt_iff]
  change _ ↔ _ ∧ x.toModel.unpack.beq _ = false
  unfold sign?
  cases x.toModel.unpack with
  | notANumber => exact iff_of_false Bool.false_ne_true nofun
  | zero s => exact iff_of_false Bool.false_ne_true fun h => Bool.noConfusion h.2
  | infinity s | finite s m e h =>
    cases s with
    | positive => exact iff_of_true rfl ⟨rfl, rfl⟩
    | negative => exact iff_of_false Bool.false_ne_true nofun

theorem lt_zero_iff : x < 0.0 ↔ sign? x = some .negative ∧ (x == 0.0) = false := by
  rw [lt_iff]
  change _ ↔ _ ∧ x.toModel.unpack.beq _ = false
  unfold sign?
  cases x.toModel.unpack with
  | notANumber => exact iff_of_false Bool.false_ne_true nofun
  | zero s => exact iff_of_false Bool.false_ne_true fun h => Bool.noConfusion h.2
  | infinity s | finite s m e h =>
    cases s with
    | positive => exact iff_of_false Bool.false_ne_true nofun
    | negative => exact iff_of_true rfl ⟨rfl, rfl⟩

theorem le_iff : x ≤ y ↔ x.toModel.unpack.le y.toModel.unpack = true :=
  decide_eq_true_iff

theorem zero_le_iff : 0.0 ≤ x ↔ sign? x = some .positive ∨ (x == 0.0) = true := by
  rw [le_iff]
  change _ ↔ _ ∨ x.toModel.unpack.beq _ = true
  unfold sign?
  cases x.toModel.unpack with
  | notANumber => exact iff_of_false Bool.false_ne_true nofun
  | zero s => exact iff_of_true rfl (Or.inr rfl)
  | infinity s | finite s m e h =>
    cases s with
    | positive => exact iff_of_true rfl (Or.inl rfl)
    | negative => exact iff_of_false Bool.false_ne_true nofun

theorem le_zero_iff : x ≤ 0.0 ↔ sign? x = some .negative ∨ (x == 0.0) = true := by
  rw [le_iff]
  change _ ↔ _ ∨ x.toModel.unpack.beq _ = true
  unfold sign?
  cases x.toModel.unpack with
  | notANumber => exact iff_of_false Bool.false_ne_true nofun
  | zero s => exact iff_of_true rfl (Or.inr rfl)
  | infinity s | finite s m e h =>
    cases s with
    | positive => exact iff_of_false Bool.false_ne_true nofun
    | negative => exact iff_of_true rfl (Or.inl rfl)

end Binary

end TalkingCalculator
