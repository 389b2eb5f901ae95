import Mathlib

/-!
# Packed doubles

A finite double other than zero has a canonical mantissa and exponent, and every canonical pair is that of a
double. Unpacking loses nothing, so doubles may be compared by what they unpack to.
-/
namespace TalkingCalculator

open Float.Model (Format UnpackedFloat)

/-- The mantissas and exponents of the finite doubles other than zero. -/
structure Canonical (m : ℕ) (e : ℤ) : Prop where
  pos : 0 < m
  lt : m < 2 ^ 53
  le_exponent : -1074 ≤ e
  exponent_le : e ≤ 971
  full : 2 ^ 52 ≤ m ∨ e = -1074

namespace Binary

open Float.Model.UnpackedFloat

variable {s : Sign} {m : ℕ} {e : ℤ} {h : 0 < m}

theorem canonical_of_unpack {b : BitVec Format.binary64.numBits}
    (hb : unpack Format.binary64 b = .finite s m e h) : Canonical m e := by
  unfold unpack at hb
  extract_lets mantissa exponent e' _ sign at hb
  have hm : mantissa.toNat < 2 ^ 52 := mantissa.isLt
  have he : exponent.toNat < 2 ^ 11 := exponent.isLt
  have hbias : e' = exponent.toNat - 1075 := rfl
  split at hb
  · split at hb <;> cases hb
  · rename_i hones
    have hmax : exponent.toNat ≠ 2 ^ 11 - 1 := by
      intro heq
      exact hones (BitVec.eq_of_toNat_eq heq)
    split at hb
    · rename_i hzero
      have h0 : exponent.toNat = 0 := by rw [hzero]; rfl
      split at hb
      · cases hb
      · simp only [UnpackedFloat.finite.injEq] at hb
        obtain ⟨-, rfl, rfl⟩ := hb
        exact ⟨h, by omega, by omega, by omega, by omega⟩
    · rename_i hzero
      have h0 : exponent.toNat ≠ 0 := by
        intro heq
        exact hzero (BitVec.eq_of_toNat_eq heq)
      have hfull : (1#1 ++ mantissa).toNat = 2 ^ 52 + mantissa.toNat := by
        rw [BitVec.toNat_append, ← Nat.shiftLeft_add_eq_or_of_lt hm]
        rfl
      simp only [UnpackedFloat.finite.injEq] at hb
      obtain ⟨-, rfl, rfl⟩ := hb
      exact ⟨h, by omega, by omega, by omega, by omega⟩

theorem log2_add_one_eq_iff (hm : m < 2 ^ 53) : m.log2 + 1 = 53 ↔ 2 ^ 52 ≤ m := by
  constructor
  · intro hlog
    by_contra hlt
    have hm0 : m ≠ 0 := by
      rintro rfl
      simp at hlog
    have := (Nat.log2_lt hm0).2 (Nat.lt_of_not_le hlt)
    omega
  · intro hle
    have : m.log2 = 52 := (Nat.log2_eq_iff (by omega)).2 ⟨hle, hm⟩
    omega

theorem pack_finite (hc : Canonical m e) :
    pack Format.binary64 (.finite s m e h) =
      if 2 ^ 52 ≤ m then packComponents Format.binary64 s (BitVec.ofNat 11 (e + 1075).toNat) (BitVec.ofNat 52 m)
      else packComponents Format.binary64 s 0#11 (BitVec.ofNat 52 m) := by
  have hle := hc.exponent_le
  have hbiased : (e + (Format.binary64.exponentBias : ℕ) + (52 : ℕ)).toNat = (e + 1075).toNat := by
    rw [show Format.binary64.exponentBias = 1023 from rfl]
    omega
  simp only [pack, hbiased]
  rw [if_neg (by omega)]
  simp only [Format.mantissaBits, show 1 + 52 = 53 from rfl, log2_add_one_eq_iff hc.lt]

theorem unpack_normal (hc : Canonical m e) (hfull : 2 ^ 52 ≤ m) :
    unpack Format.binary64
      (packComponents Format.binary64 s (BitVec.ofNat 11 (e + 1075).toNat) (BitVec.ofNat 52 m)) =
        .finite s m e h := by
  have hlt := hc.lt
  have hle := hc.exponent_le
  have hge := hc.le_exponent
  have hones : BitVec.ofNat 11 (e + 1075).toNat ≠ -1#11 := by
    intro heq
    have := congrArg BitVec.toNat heq
    simp only [BitVec.toNat_ofNat, BitVec.toNat_neg] at this
    omega
  have hzero : BitVec.ofNat 11 (e + 1075).toNat ≠ 0#11 := by
    intro heq
    have := congrArg BitVec.toNat heq
    simp only [BitVec.toNat_ofNat] at this
    omega
  have hm : (1#1 ++ BitVec.ofNat 52 m).toNat = m := by
    rw [BitVec.toNat_append, ← Nat.shiftLeft_add_eq_or_of_lt (BitVec.isLt _)]
    simp only [BitVec.toNat_ofNat]
    omega
  unfold unpack
  simp only [unpackMantissa_packComponents, unpackExponent_packComponents, unpackSign_packComponents,
    Sign.ofBitVec_toBitVec]
  rw [if_neg hones, if_neg hzero]
  simp only [UnpackedFloat.finite.injEq, BitVec.toNat_ofNat]
  refine ⟨trivial, hm, ?_⟩
  rw [show (Format.binary64.exponentBias : ℤ) = 1023 from rfl]
  omega

theorem unpack_subnormal (hm : m < 2 ^ 52) :
    unpack Format.binary64 (packComponents Format.binary64 s 0#11 (BitVec.ofNat 52 m)) =
      .finite s m (-1074) h := by
  have hzero : BitVec.ofNat 52 m ≠ 0#52 := by
    intro heq
    have := congrArg BitVec.toNat heq
    simp only [BitVec.toNat_ofNat] at this
    omega
  unfold unpack
  simp only [unpackMantissa_packComponents, unpackExponent_packComponents, unpackSign_packComponents,
    Sign.ofBitVec_toBitVec]
  rw [if_neg (by decide), if_pos trivial, dif_neg hzero]
  simp only [UnpackedFloat.finite.injEq, BitVec.toNat_ofNat]
  exact ⟨trivial, by omega, rfl⟩

theorem unpack_pack_finite (hc : Canonical m e) :
    (Float.Model.pack (.finite s m e h)).unpack = .finite s m e h := by
  change unpack Format.binary64 (pack Format.binary64 (.finite s m e h)) = _
  rw [pack_finite hc]
  by_cases hfull : 2 ^ 52 ≤ m
  · rw [if_pos hfull]
    exact unpack_normal hc hfull
  · have he : e = -1074 := hc.full.resolve_left hfull
    subst he
    rw [if_neg hfull]
    exact unpack_subnormal (by omega)

theorem pack_finite_of_lt (he : 971 < e) :
    pack Format.binary64 (.finite s m e h) = pack Format.binary64 (.infinity s) := by
  simp only [pack]
  rw [if_pos]
  rw [show Format.binary64.exponentBias = 1023 from rfl]
  omega

def ofUnpacked (u : UnpackedFloat) : Float :=
  .ofModel (.pack u)

@[simp] theorem ofUnpacked_unpack (x : Float) : ofUnpacked x.toModel.unpack = x :=
  Float.toBits_inj.mp (UInt64.toBitVec_inj.mp (pack_unpack_of_valid x.toModel.valid))

theorem unpack_ofUnpacked_finite (hc : Canonical m e) :
    (ofUnpacked (.finite s m e h)).toModel.unpack = .finite s m e h :=
  unpack_pack_finite hc

theorem unpack_ofUnpacked_zero : (ofUnpacked (.zero s)).toModel.unpack = .zero s := by
  cases s <;> rfl

theorem ofUnpacked_finite_of_lt (he : 971 < e) :
    ofUnpacked (.finite s m e h) = ofUnpacked (.infinity s) :=
  Float.toBits_inj.mp (UInt64.toBitVec_inj.mp (pack_finite_of_lt (h := h) he))

/-- A finite double is a zero or has a canonical mantissa and exponent. -/
theorem eq_ofUnpacked_of_isFinite {x : Float} (hx : x.isFinite = true) :
    (∃ s, x = ofUnpacked (.zero s)) ∨
      ∃ s m e h, Canonical m e ∧ x = ofUnpacked (.finite s m e h) := by
  change x.toModel.unpack.isFinite = true at hx
  cases hu : x.toModel.unpack with
  | notANumber => simp [hu, UnpackedFloat.isFinite] at hx
  | infinity s => simp [hu, UnpackedFloat.isFinite] at hx
  | zero s =>
    left
    exact ⟨s, by rw [← hu, ofUnpacked_unpack]⟩
  | finite s m e h =>
    right
    exact ⟨s, m, e, h, canonical_of_unpack hu, by rw [← hu, ofUnpacked_unpack]⟩

theorem isFinite_ofUnpacked_finite (hc : Canonical m e) : (ofUnpacked (.finite s m e h)).isFinite = true := by
  change (ofUnpacked (.finite s m e h)).toModel.unpack.isFinite = true
  rw [unpack_ofUnpacked_finite hc]
  rfl

theorem neg_ofUnpacked_finite (hc : Canonical m e) :
    -ofUnpacked (.finite s m e h) = ofUnpacked (.finite (-s) m e h) := by
  change ofUnpacked (ofUnpacked (.finite s m e h)).toModel.unpack.neg = _
  rw [unpack_ofUnpacked_finite hc]
  rfl

theorem ofUnpacked_finite_add_zero (hc : Canonical m e) :
    ofUnpacked (.finite s m e h) + 0.0 = ofUnpacked (.finite s m e h) := by
  change ofUnpacked (UnpackedFloat.add Format.binary64 (ofUnpacked (.finite s m e h)).toModel.unpack
    (.zero .positive)) = _
  rw [unpack_ofUnpacked_finite hc]
  rfl

theorem ofUnpacked_zero_add_zero : ofUnpacked (.zero s) + 0.0 = 0.0 := by
  cases s <;> rfl

end Binary

end TalkingCalculator
