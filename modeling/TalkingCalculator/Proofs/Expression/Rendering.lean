import TalkingCalculator.Proofs.Binary.Difference
import TalkingCalculator.Proofs.Expression.Display

/-!
# Tokens written as a text

Tokens are written one after another: a number as the display shows it, an operator by its glyph, a function by its
name alone. A row whose numbers have no sign is read as it was written if no two of them stand side by side and a
parenthesis follows every function. The scanner gives no other rows.
-/
namespace TalkingCalculator

open Float.Model.UnpackedFloat

/-- A double without a sign bit is written as a literal that reads back as it. -/
theorem exists_literal_displayNumber {v : Float} (hv : v.isFinite = true) (hsign : Binary.sign? v = some .positive) :
    ∃ l : Literal, (displayNumber v).toList = l.chars ∧ IsCorrectlyRounded l.value v := by
  have hne : v ≠ -0.0 := by
    rintro rfl
    cases hsign
  have hzero : v + 0.0 = v := by rw [add_zero_eq hv, if_neg hne]
  obtain ⟨d, ⟨htext, hvalue⟩ | ⟨-, hvalue⟩⟩ := displayNumber_cases hv
  · refine ⟨d.literal, htext, ?_⟩
    rw [← hzero, ← hvalue]
    exact Binary.isCorrectlyRounded_nearest d.literal.value_nonneg
  · have hminus := Binary.sign?_neg (Binary.sign?_nearest .positive d.literal.value)
    rw [hvalue, hzero, hsign] at hminus
    cases hminus

namespace Token

def text : Token → String
  | number v => displayNumber v
  | operator op => op.glyph.toString
  | function f => f.name
  | leftParen => "("
  | rightParen => ")"

def render (ts : List Token) : String :=
  String.join (ts.map text)

theorem toList_text_operator (op : Operator) : (operator op).text.toList = [op.glyph] := by
  simp [text, Char.toString]

theorem toList_render_cons (t : Token) (ts : List Token) :
    (render (t :: ts)).toList = t.text.toList ++ (render ts).toList := by
  simp [render]

/-- No two numbers stand side by side, and every function has its parenthesis. -/
structure Spaced (ts : List Token) : Prop where
  apart : ∀ i v w, ts[i]? = some (number v) → ts[i + 1]? ≠ some (number w)
  opened : ∀ i f, ts[i]? = some (function f) → ts[i + 1]? = some leftParen

variable {t : Token} {ts : List Token}

theorem spaced_nil : Spaced [] :=
  ⟨nofun, nofun⟩

theorem spaced_cons : Spaced (t :: ts) ↔
    (∀ v w, t = number v → ts.head? ≠ some (number w)) ∧ (∀ f, t = function f → ts.head? = some leftParen) ∧
      Spaced ts := by
  rw [List.head?_eq_getElem?]
  constructor
  · intro h
    refine ⟨fun v w ht => h.apart 0 v w (congrArg some ht), fun f ht => h.opened 0 f (congrArg some ht), ?_⟩
    exact ⟨fun i => h.apart (i + 1), fun i => h.opened (i + 1)⟩
  · rintro ⟨hnumber, hfunction, h⟩
    refine ⟨fun i v w hv => ?_, fun i f hf => ?_⟩
    · cases i with
      | zero => exact hnumber v w (Option.some.inj hv)
      | succ i => exact h.apart i v w hv
    · cases i with
      | zero => exact hfunction f (Option.some.inj hf)
      | succ i => exact h.opened i f hf

/-- A literal ends where anything but a number is written after it. -/
theorem runEnds_render (hts : ∀ v, ts.head? ≠ some (number v)) : RunEnds (render ts).toList := by
  cases ts with
  | nil => exact runEnds_nil
  | cons t ts =>
    rw [toList_render_cons]
    cases t with
    | number v => exact absurd rfl (hts v)
    | operator op =>
      rw [toList_text_operator]
      exact runEnds_glyph op _
    | function f => cases f <;> exact runEnds_cons (by decide) _
    | leftParen | rightParen => exact runEnds_cons (by decide) _

theorem lexed_render (hts : Spaced ts)
    (hnumbers : ∀ v, number v ∈ ts → v.isFinite = true ∧ Binary.sign? v = some .positive) :
    Lexed [] (render ts).toList ts := by
  induction ts with
  | nil => exact .done
  | cons t ts ih =>
    obtain ⟨hnumber, hfunction, hrest⟩ := spaced_cons.mp hts
    have ih := ih hrest fun v hv => hnumbers v (List.mem_cons_of_mem t hv)
    rw [toList_render_cons]
    cases t with
    | number v =>
      obtain ⟨hfinite, hsign⟩ := hnumbers v List.mem_cons_self
      obtain ⟨l, hl, hv⟩ := exists_literal_displayNumber hfinite hsign
      rw [text, hl]
      exact .number l hv (runEnds_render fun w => hnumber v w rfl) ih
    | operator op =>
      rw [toList_text_operator]
      exact .operator (Operator.ofChar?_glyph op) ih
    | function f =>
      -- The name and the parenthesis after it are one lexeme, of which `ih` has read the parenthesis.
      obtain ⟨us, rfl⟩ := List.head?_eq_some_iff.mp (hfunction f rfl)
      obtain ⟨cs, hcs, ih⟩ := ih.exists_leftParen
      rw [text, hcs, List.append_cons, ← Lexeme.opening_toList]
      exact .function f ih
    | leftParen => exact .leftParen ih
    | rightParen => exact .rightParen ih

theorem spaced_of_lexed {rest cs : List Char} (h : Lexed rest cs ts) : Spaced ts := by
  induction h with
  | done => exact spaced_nil
  | number l hv hend h ih =>
    refine spaced_cons.mpr ⟨fun v w _ hw => ?_, nofun, ih⟩
    obtain ⟨us, rfl⟩ := List.head?_eq_some_iff.mp hw
    exact h.not_runEnds hend
  | operator _ _ ih | leftParen _ ih | rightParen _ ih => exact spaced_cons.mpr ⟨nofun, nofun, ih⟩
  | function f _ ih => exact spaced_cons.mpr ⟨nofun, fun _ _ => rfl, spaced_cons.mpr ⟨nofun, nofun, ih⟩⟩

theorem sign_of_lexed {rest cs : List Char} (h : Lexed rest cs ts) {v : Float} (hv : number v ∈ ts) :
    Binary.sign? v = some .positive := by
  induction h with
  | done => cases hv
  | number l hround _ _ ih =>
    rcases List.mem_cons.mp hv with heq | hv
    · cases heq
      rw [Binary.eq_nearest_of_isCorrectlyRounded l.value_nonneg hround]
      exact Binary.sign?_nearest _ _
    · exact ih hv
  | operator _ _ ih | leftParen _ ih | rightParen _ ih => exact ih ((List.mem_cons.mp hv).resolve_left nofun)
  | function f _ ih =>
    have hv := (List.mem_cons.mp hv).resolve_left nofun
    exact ih ((List.mem_cons.mp hv).resolve_left nofun)

/-- A spaced row whose numbers are finite and have no sign is read as it was written. Every row that the scanner gives is
spaced, and its numbers have no sign; they may be infinite, but none is NaN. -/
theorem tokenize_render :
    (∀ ts, Spaced ts → (∀ v, number v ∈ ts → v.isFinite = true ∧ Binary.sign? v = some .positive) →
      tokenize (render ts) = .ok ts) ∧
    ∀ s ts, tokenize s = .ok ts →
      Spaced ts ∧ ∀ v, number v ∈ ts → 0.0 ≤ v ∧ v.isNaN = false ∧ Binary.sign? v = some .positive := by
  refine ⟨fun ts hts hnumbers => (tokenize_eq_ok_iff _ ts).mpr (lexed_render hts hnumbers), fun s ts h => ?_⟩
  have hlexed := (tokenize_eq_ok_iff s ts).mp h
  refine ⟨spaced_of_lexed hlexed, fun v hv => ?_⟩
  have hsign := sign_of_lexed hlexed hv
  exact ⟨Binary.zero_le_iff.mpr (Or.inl hsign), Binary.isNaN_of_sign? hsign, hsign⟩

end Token

end TalkingCalculator
