import TalkingCalculator.Proofs.Calculator.Outcome
import TalkingCalculator.Proofs.Calculator.Texts
import TalkingCalculator.Proofs.Decimal.Fixed
import TalkingCalculator.Screen.Ascii

/-!
# Texts that become ASCII

A text is drawable if its signs have ASCII stand-ins. The pieces that keys type are drawable, and so are results,
roots and the texts of failures, hence all texts of a calculator.
-/
namespace TalkingCalculator

def IsAscii (text : String) : Prop :=
  ∀ c ∈ text.toList, c.toNat < 128

instance : DecidablePred IsAscii := fun text =>
  decidable_of_iff (text.toList.all (·.toNat < 128) = true) (by simp [IsAscii])

def Drawable (text : String) : Prop :=
  ∀ c ∈ text.toList, (asciiChar c).toNat < 128

instance : DecidablePred Drawable := fun text =>
  decidable_of_iff (text.toList.all (fun c => (asciiChar c).toNat < 128) = true) (by simp [Drawable])

theorem asciiChar_lt {c : Char} (hc : c.toNat < 128) : (asciiChar c).toNat < 128 := by
  unfold asciiChar
  split
  iterate 5 decide
  exact hc

theorem IsAscii.drawable {text : String} (h : IsAscii text) : Drawable text :=
  fun c hc => asciiChar_lt (h c hc)

namespace Drawable

variable {text : String}

theorem isAscii_toAscii (h : Drawable text) : IsAscii (toAscii text) := by
  unfold IsAscii toAscii
  rw [String.toList_ofList]
  exact List.forall_mem_map.mpr h

theorem append {rest : String} (h : Drawable text) (hrest : Drawable rest) : Drawable (text ++ rest) := by
  unfold Drawable
  rw [String.toList_append]
  exact List.forall_mem_append.mpr ⟨h, hrest⟩

theorem of_prefix {shorter : String} (h : Drawable text) (hshorter : shorter.toList <+: text.toList) :
    Drawable shorter :=
  fun c hc => h c (hshorter.subset hc)

end Drawable

theorem toNat_lt_of_isDigit {c : Char} (hc : c.isDigit = true) : c.toNat < 128 :=
  (Char.isDigit_iff_toNat.mp hc).2.trans_lt (by decide)

theorem RunChar.toNat_lt {c : Char} (hc : RunChar c) : c.toNat < 128 := by
  rcases hc with hc | rfl
  · exact toNat_lt_of_isDigit hc
  · decide

theorem forall_mem_signed {P : Char → Prop} (hminus : P '-') (sign : Float.Model.UnpackedFloat.Sign) {cs : List Char}
    (hcs : ∀ c ∈ cs, P c) : ∀ c ∈ Style.signed sign cs, P c := by
  cases sign with
  | positive => exact hcs
  | negative => exact List.forall_mem_cons.mpr ⟨hminus, hcs⟩

namespace Fixed

theorem toNat_lt_of_mem_digits {places n : ℕ} {c : Char} (hc : c ∈ digits places n) : c.toNat < 128 := by
  rcases List.mem_append.mp hc with hc | hc
  · exact toNat_lt_of_isDigit (Decimal.isDigit_of_mem_toDigits hc)
  · rcases List.mem_cons.mp hc with rfl | hc
    · decide
    · exact toNat_lt_of_isDigit (isDigit_of_mem_padded hc)

/-- Every double is written in ASCII, also those that are not finite. -/
theorem isAscii_write (places : ℕ) (x : Float) : IsAscii (write places x) := by
  unfold IsAscii write
  rw [String.toList_ofList]
  unfold chars
  split
  · simp
  · exact forall_mem_signed (by decide) _ (by simp)
  · exact forall_mem_signed (by decide) _ fun c hc => toNat_lt_of_mem_digits hc
  · exact forall_mem_signed (by decide) _ fun c hc => toNat_lt_of_mem_digits hc

end Fixed

theorem isAscii_displayNumber {v : Float} (hv : v.isFinite = true) : IsAscii (displayNumber v) := by
  obtain ⟨d, ⟨htext, -⟩ | ⟨htext, -⟩⟩ := displayNumber_cases hv
  · unfold IsAscii
    rw [htext]
    exact fun c hc => (d.literal.runChar_of_mem hc).toNat_lt
  · unfold IsAscii
    rw [htext]
    exact List.forall_mem_cons.mpr ⟨by decide, fun c hc => (d.literal.runChar_of_mem hc).toNat_lt⟩

theorem drawable_display (r : Roots) : Drawable r.display := by
  have hroot (x : Float) : Drawable (displayRoot x) := (Fixed.isAscii_write 4 (x + 0.0)).drawable
  have hx : Drawable "x = " := by decide
  have hx₁ : Drawable "x₁ = " := by decide
  have hx₂ : Drawable ", x₂ = " := by decide
  have hplus : Drawable " + " := by decide
  have hminus : Drawable " - " := by decide
  have hi : Drawable "i" := by decide
  have hix₂ : Drawable "i, x₂ = " := by decide
  cases r with
  | degenerate => decide
  | twoReal x₁ x₂ => exact ((hx₁.append (hroot x₁)).append hx₂).append (hroot x₂)
  | oneReal x => exact hx.append (hroot x)
  | complex re im =>
    exact ((((((((hx₁.append (hroot re)).append hplus).append (hroot im)).append hix₂).append
      (hroot re)).append hminus).append (hroot im)).append hi)

theorem drawable_pieces : ∀ piece ∈ Key.pieces, Drawable piece := by
  decide

theorem drawable_piece (key : Key) {piece : String} (h : key.piece? = some piece) : Drawable piece :=
  drawable_pieces piece (Key.mem_pieces h)

namespace Calculator

theorem drawable_outcome (c : Calculator) : Drawable c.outcome.text := by
  unfold outcome
  cases c.mode with
  | expression =>
    dsimp only
    split
    · rename_i v hv
      exact (isAscii_displayNumber (isFinite_of_evaluate hv)).drawable
    · decide
  | equation =>
    dsimp only
    split
    · rename_i r hr
      exact drawable_display r
    · decide

structure AllDrawable (c : Calculator) : Prop where
  display : Drawable c.display
  coefficients : ∀ slot, Drawable (c.coefficients.get slot)

variable {c : Calculator} {key : Key}

theorem AllDrawable.of_redisplayed {text : String} (hc : c.AllDrawable) (h : Redisplayed c key text) : Drawable text := by
  cases h with
  | kept => exact hc.display
  | placeholder => decide
  | typed hpiece => exact drawable_piece key hpiece
  | extended hpiece => exact hc.display.append (drawable_piece key hpiece)
  | shortened _ h => exact hc.display.of_prefix h
  | outcome => exact c.drawable_outcome

theorem drawable_retyped {old new : String} (hold : Drawable old) (h : Retyped key old new) : Drawable new := by
  cases h with
  | shortened h => exact hold.of_prefix h
  | extended hpiece => exact hold.append (drawable_piece key hpiece)

theorem AllDrawable.press (hc : c.AllDrawable) (key : Key) : (c.press key).AllDrawable :=
  ⟨hc.of_redisplayed (redisplayed_press key), fun slot => drawable_retyped (hc.coefficients slot) (retyped_press key slot)⟩

theorem allDrawable_fresh : fresh.AllDrawable := by
  refine ⟨by decide, fun slot => ?_⟩
  cases slot <;> decide

end Calculator

end TalkingCalculator
