import TalkingCalculator.Proofs.Binary.Signs

/-!
# Opposites

Rounding does not look at the sign. So a product or a quotient of opposites is the opposite of that of the doubles,
to the last bit, infinities and NaN included. Taking a double away from zero gives its opposite too, but for the sign
of a zero, and so does a difference that is taken the other way round.
-/
namespace TalkingCalculator

open Float.Model (Format UnpackedFloat)
open Float.Model.UnpackedFloat

namespace Binary

variable {s t : Sign} {m : ℕ} {e : ℤ} {x y : Float}

theorem unpack_neg (x : Float) : (-x).toModel.unpack = x.toModel.unpack.neg := by
  change (Float.Model.pack x.toModel.unpack.neg).unpack = _
  cases hu : x.toModel.unpack with
  | notANumber => rfl
  | infinity s => cases s <;> rfl
  | zero s => cases s <;> rfl
  | finite s m e h => exact unpack_pack_finite (canonical_of_unpack hu)

/-- Unless all bits of the exponent are set, the sign bit is all that tells opposites apart. -/
theorem unpack_packComponents_neg {exponent : BitVec 11} (hexponent : exponent ≠ -1#11) (mantissa : BitVec 52) :
    unpack Format.binary64 (packComponents Format.binary64 (-s) exponent mantissa) =
      (unpack Format.binary64 (packComponents Format.binary64 s exponent mantissa)).neg := by
  unfold unpack
  simp only [unpackMantissa_packComponents, unpackExponent_packComponents, unpackSign_packComponents,
    Sign.ofBitVec_toBitVec]
  rw [if_neg hexponent, if_neg hexponent]
  split
  · split <;> rfl
  · rfl

theorem unpack_pack_neg (u : UnpackedFloat) :
    unpack Format.binary64 (pack Format.binary64 u.neg) = (unpack Format.binary64 (pack Format.binary64 u)).neg := by
  cases u with
  | notANumber => rfl
  | infinity s => cases s <;> rfl
  | zero s => cases s <;> rfl
  | finite s m e h =>
    change unpack Format.binary64 (pack Format.binary64 (.finite (-s) m e h)) = _
    simp only [pack]
    split
    · cases s <;> rfl
    · rename_i hmax
      split
      · refine unpack_packComponents_neg ?_ _
        intro heq
        have := congrArg BitVec.toNat heq
        simp only [BitVec.toNat_ofNat, BitVec.toNat_neg] at this
        omega
      · exact unpack_packComponents_neg (by decide) _

theorem neg_ofUnpacked (u : UnpackedFloat) : -ofUnpacked u = ofUnpacked u.neg := by
  rw [← ofUnpacked_unpack (ofUnpacked u.neg), ← ofUnpacked_unpack (-ofUnpacked u), unpack_neg]
  exact congrArg ofUnpacked (unpack_pack_neg u).symm

theorem roundWithAccuracy_neg (accuracy : Accuracy) :
    roundWithAccuracy Format.binary64 (-s) m e accuracy = (roundWithAccuracy Format.binary64 s m e accuracy).neg := by
  unfold roundWithAccuracy
  dsimp only
  split <;> rfl

theorem neg_mul_sign (s t : Sign) : -s * t = -(s * t) := by
  cases s <;> cases t <;> rfl

theorem neg_div_sign (s t : Sign) : -s / t = -(s / t) := by
  cases s <;> cases t <;> rfl

theorem unpacked_neg_mul (u w : UnpackedFloat) :
    UnpackedFloat.mul Format.binary64 u.neg w = (UnpackedFloat.mul Format.binary64 u w).neg := by
  cases u with
  | notANumber => rfl
  | infinity s | zero s =>
    cases w with
    | notANumber | zero | infinity | finite =>
      simp [UnpackedFloat.mul, UnpackedFloat.neg, neg_mul_sign]
  | finite s m e h =>
    cases w with
    | notANumber => rfl
    | infinity | zero => simp [UnpackedFloat.mul, UnpackedFloat.neg, neg_mul_sign]
    | finite t n k h' =>
      change roundWithAccuracy Format.binary64 (-s * t) _ _ _ = _
      rw [neg_mul_sign]
      exact roundWithAccuracy_neg _

theorem unpacked_neg_div (u w : UnpackedFloat) :
    UnpackedFloat.div Format.binary64 u.neg w = (UnpackedFloat.div Format.binary64 u w).neg := by
  cases u with
  | notANumber => rfl
  | infinity s | zero s =>
    cases w with
    | notANumber | zero | infinity | finite =>
      simp [UnpackedFloat.div, UnpackedFloat.neg, neg_div_sign]
  | finite s m e h =>
    cases w with
    | notANumber => rfl
    | infinity | zero => simp [UnpackedFloat.div, UnpackedFloat.neg, neg_div_sign]
    | finite t n k h' =>
      change roundWithAccuracy Format.binary64 (-s / t) _ _ _ = _
      rw [neg_div_sign]
      exact roundWithAccuracy_neg _

protected theorem neg_mul (x y : Float) : -x * y = -(x * y) := by
  change ofUnpacked (UnpackedFloat.mul Format.binary64 (-x).toModel.unpack y.toModel.unpack) =
    -ofUnpacked (UnpackedFloat.mul Format.binary64 x.toModel.unpack y.toModel.unpack)
  rw [unpack_neg, unpacked_neg_mul, neg_ofUnpacked]

protected theorem neg_div (x y : Float) : -x / y = -(x / y) := by
  change ofUnpacked (UnpackedFloat.div Format.binary64 (-x).toModel.unpack y.toModel.unpack) =
    -ofUnpacked (UnpackedFloat.div Format.binary64 x.toModel.unpack y.toModel.unpack)
  rw [unpack_neg, unpacked_neg_div, neg_ofUnpacked]

/-- What is taken away from zero is its opposite, but for the sign of a zero. -/
theorem zero_sub_add_zero (x : Float) : 0.0 - x + 0.0 = -x + 0.0 := by
  rw [← ofUnpacked_unpack x]
  cases hu : x.toModel.unpack with
  | notANumber => rfl
  | infinity s => cases s <;> rfl
  | zero s => cases s <;> rfl
  | finite s m e h =>
    have hc := canonical_of_unpack hu
    have hzero : (0.0 : Float).toModel.unpack = .zero .positive := rfl
    change ofUnpacked (UnpackedFloat.sub Format.binary64 _ (ofUnpacked (.finite s m e h)).toModel.unpack) + 0.0 = _
    rw [hzero, unpack_ofUnpacked_finite hc, neg_ofUnpacked_finite hc]
    rfl

/-- Adding zero does nothing to the infinities and to NaN. -/
theorem add_zero_of_not_isFinite (hx : x.isFinite = false) : x + 0.0 = x := by
  rw [← ofUnpacked_unpack x]
  change x.toModel.unpack.isFinite = false at hx
  generalize x.toModel.unpack = u at hx ⊢
  cases u with
  | notANumber => rfl
  | infinity s => cases s <;> rfl
  | zero | finite => cases hx

theorem neg_neg_sign (s : Sign) : - -s = s := by
  cases s <;> rfl

theorem mul_comm_sign (s t : Sign) : s * t = t * s := by
  cases s <;> cases t <;> rfl

theorem div_neg_sign (s t : Sign) : s / -t = -(s / t) := by
  cases s <;> cases t <;> rfl

theorem unpacked_neg_neg (u : UnpackedFloat) : u.neg.neg = u := by
  cases u <;> simp [UnpackedFloat.neg, neg_neg_sign]

theorem unpacked_mul_comm (u w : UnpackedFloat) :
    UnpackedFloat.mul Format.binary64 u w = UnpackedFloat.mul Format.binary64 w u := by
  cases u with
  | finite s m e h =>
    cases w with
    | finite t n k h' =>
      change roundWithAccuracy Format.binary64 (s * t) (m * n) (e + k) _ =
        roundWithAccuracy Format.binary64 (t * s) (n * m) (k + e) _
      rw [mul_comm_sign, Nat.mul_comm, Int.add_comm]
    | notANumber => rfl
    | infinity | zero => simp [UnpackedFloat.mul, mul_comm_sign]
  | notANumber => cases w <;> rfl
  | infinity s | zero s =>
    cases w with
    | notANumber | zero | infinity | finite => simp [UnpackedFloat.mul, mul_comm_sign]

theorem unpacked_div_neg (u w : UnpackedFloat) :
    UnpackedFloat.div Format.binary64 u w.neg = UnpackedFloat.div Format.binary64 u.neg w := by
  cases u <;> cases w <;> simp [UnpackedFloat.div, UnpackedFloat.neg, neg_div_sign, div_neg_sign]

protected theorem neg_neg (x : Float) : - -x = x := by
  change ofUnpacked (-x).toModel.unpack.neg = x
  rw [unpack_neg, unpacked_neg_neg, ofUnpacked_unpack]

protected theorem mul_comm (x y : Float) : x * y = y * x :=
  congrArg ofUnpacked (unpacked_mul_comm _ _)

protected theorem mul_neg (x y : Float) : x * -y = -(x * y) := by
  rw [Binary.mul_comm, Binary.neg_mul, Binary.mul_comm]

protected theorem div_neg (x y : Float) : x / -y = -(x / y) := by
  rw [← Binary.neg_div]
  change ofUnpacked (UnpackedFloat.div Format.binary64 x.toModel.unpack (-y).toModel.unpack) =
    ofUnpacked (UnpackedFloat.div Format.binary64 (-x).toModel.unpack y.toModel.unpack)
  rw [unpack_neg, unpack_neg, unpacked_div_neg]

theorem round_neg (s : Sign) (m : ℕ) (e : ℤ) :
    UnpackedFloat.round Format.binary64 (-s) m e = (UnpackedFloat.round Format.binary64 s m e).neg :=
  roundWithAccuracy_neg _

theorem normalize_neg {k : ℤ} (hk : k ≠ 0) (e : ℤ) (z : Sign) :
    UnpackedFloat.normalize Format.binary64 (-k) e z = (UnpackedFloat.normalize Format.binary64 k e z).neg := by
  unfold UnpackedFloat.normalize
  rcases lt_or_gt_of_ne hk with hlt | hgt
  · rw [compare_lt_iff_lt.mpr hlt, compare_gt_iff_gt.mpr (neg_pos.mpr hlt)]
    exact round_neg .negative _ _
  · rw [compare_gt_iff_gt.mpr hgt, compare_lt_iff_lt.mpr (neg_neg_iff_pos.mpr hgt), neg_neg]
    exact round_neg .positive _ _

/-- The same double, but for the sign of a zero. -/
def Alike (x y : Float) : Prop :=
  x = y ∨ (x == 0.0) = true ∧ (y == 0.0) = true

theorem beq_zero_iff : (x == 0.0) = true ↔ ∃ s, x = ofUnpacked (.zero s) := by
  constructor
  · intro h
    change x.toModel.unpack.beq _ = true at h
    rw [← ofUnpacked_unpack x]
    generalize x.toModel.unpack = u at h
    cases u with
    | zero s => exact ⟨s, rfl⟩
    | notANumber => cases h
    | infinity s | finite s m e h' => cases s <;> cases h
  · rintro ⟨s, rfl⟩
    cases s <;> decide

theorem neg_beq_zero (x : Float) : (-x == 0.0) = (x == 0.0) := by
  change (-x).toModel.unpack.beq _ = x.toModel.unpack.beq _
  rw [unpack_neg]
  cases x.toModel.unpack with
  | notANumber => rfl
  | zero s | infinity s | finite s m e h => cases s <;> rfl

namespace Alike

theorem refl (x : Float) : Alike x x :=
  Or.inl rfl

theorem symm (h : Alike x y) : Alike y x :=
  h.imp Eq.symm And.symm

theorem neg (h : Alike x y) : Alike (-x) (-y) := by
  rcases h with rfl | hzero
  · exact Or.inl rfl
  · rw [← neg_beq_zero x, ← neg_beq_zero y] at hzero
    exact Or.inr hzero

theorem zero_div (s t : Sign) (z : Float) : Alike (ofUnpacked (.zero s) / z) (ofUnpacked (.zero t) / z) := by
  change Alike (ofUnpacked (UnpackedFloat.div Format.binary64 (ofUnpacked (.zero s)).toModel.unpack z.toModel.unpack))
    (ofUnpacked (UnpackedFloat.div Format.binary64 (ofUnpacked (.zero t)).toModel.unpack z.toModel.unpack))
  rw [unpack_ofUnpacked_zero, unpack_ofUnpacked_zero]
  cases z.toModel.unpack with
  | notANumber | zero => exact Or.inl rfl
  | infinity r | finite r m e h => exact Or.inr ⟨beq_zero_iff.mpr ⟨s / r, rfl⟩, beq_zero_iff.mpr ⟨t / r, rfl⟩⟩

theorem div (h : Alike x y) (z : Float) : Alike (x / z) (y / z) := by
  rcases h with rfl | ⟨hx, hy⟩
  · exact Or.inl rfl
  · obtain ⟨s, rfl⟩ := beq_zero_iff.mp hx
    obtain ⟨t, rfl⟩ := beq_zero_iff.mp hy
    exact zero_div s t z

theorem isFinite_eq (h : Alike x y) : x.isFinite = y.isFinite := by
  rcases h with rfl | ⟨hx, hy⟩
  · rfl
  · obtain ⟨s, rfl⟩ := beq_zero_iff.mp hx
    obtain ⟨t, rfl⟩ := beq_zero_iff.mp hy
    cases s <;> cases t <;> rfl

theorem beq (h : Alike x y) (hx : x.isFinite = true) : (x == y) = true := by
  rcases h with rfl | ⟨hx, hy⟩
  · rw [Float.beq_self_iff]
    rintro rfl
    exact absurd hx (by decide)
  · exact BEq.trans hx (BEq.symm hy)

end Alike

theorem apply_neg_sign (s : Sign) (m : ℕ) : (-s).apply m = -s.apply m := by
  cases s <;> simp [Sign.apply]

theorem normalize_alike (s t : Sign) (m n : ℕ) (e : ℤ) :
    Alike (ofUnpacked (UnpackedFloat.normalize Format.binary64 ((-s).apply m + t.apply n) e .positive))
      (ofUnpacked (UnpackedFloat.normalize Format.binary64 (s.apply m - t.apply n) e .positive).neg) := by
  have hopposite : (-s).apply m + t.apply n = -(s.apply m - t.apply n) := by
    rw [apply_neg_sign, neg_sub', sub_neg_eq_add]
  rw [hopposite]
  generalize s.apply m - t.apply n = k
  by_cases hk : k = 0
  · subst hk
    exact Or.inr ⟨beq_zero_iff.mpr ⟨.positive, rfl⟩, beq_zero_iff.mpr ⟨.negative, rfl⟩⟩
  · rw [normalize_neg hk]
    exact Or.inl rfl

/-- Taking a difference the other way round gives its opposite, but for the sign of a zero. -/
theorem neg_add_alike (x y : Float) : Alike (-x + y) (-(x - y)) := by
  change Alike (ofUnpacked (UnpackedFloat.add Format.binary64 (-x).toModel.unpack y.toModel.unpack))
    (-ofUnpacked (UnpackedFloat.sub Format.binary64 x.toModel.unpack y.toModel.unpack))
  rw [unpack_neg, neg_ofUnpacked]
  cases x.toModel.unpack with
  | notANumber => exact Or.inl rfl
  | infinity s =>
    cases y.toModel.unpack with
    | notANumber | zero | finite => exact Or.inl rfl
    | infinity t =>
      left
      cases s <;> cases t <;> rfl
  | zero s =>
    cases y.toModel.unpack with
    | notANumber => exact Or.inl rfl
    | infinity t =>
      left
      cases t <;> rfl
    | zero t =>
      right
      cases s <;> cases t <;> decide
    | finite t n k h' =>
      left
      cases t <;> rfl
  | finite s m e h =>
    cases y.toModel.unpack with
    | notANumber => exact Or.inl rfl
    | infinity t =>
      left
      cases t <;> rfl
    | zero t =>
      left
      rfl
    | finite t n k h' => exact normalize_alike s t _ _ _

end Binary

end TalkingCalculator
