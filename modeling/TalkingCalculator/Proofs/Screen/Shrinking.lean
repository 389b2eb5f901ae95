import TalkingCalculator.Proofs.Binary.Order
import TalkingCalculator.Proofs.Screen.Painting

/-!
# Shrinking the display

The text of the display is drawn at the first scale at which it leaves a margin, or at the first one that is at most
one half, whatever the canvas says of widths. Both ends of the search are reached within its tries, because twenty-eight
steps lead from each of the scales that it can start at down to one half.
-/
namespace TalkingCalculator

namespace Screen

def lower (scale : Float) : Float :=
  scale - 0.1

def startScale (s : Settings) (text : String) : Float :=
  s.fontScale (if text.length < 12 then 2.5 else 1.6)

theorem shrink_eq_iterate {fits : Float → Bool} {tries k : ℕ} {scale : Float} (hk : k ≤ tries)
    (hearlier : ∀ j < k, 0.5 < lower^[j] scale ∧ fits (lower^[j] scale) = false)
    (hlast : 0.5 < lower^[k] scale → fits (lower^[k] scale) = true) :
    shrink fits tries scale = lower^[k] scale := by
  induction tries generalizing k scale with
  | zero =>
    obtain rfl := Nat.le_zero.mp hk
    rfl
  | succ tries ih =>
    unfold shrink
    cases k with
    | zero =>
      rw [Function.iterate_zero_apply] at hlast ⊢
      rw [if_neg (by simpa using hlast)]
    | succ k =>
      have hfirst : 0.5 < scale ∧ fits scale = false := hearlier 0 k.succ_pos
      rw [if_pos (by simp [hfirst]), Function.iterate_succ_apply]
      refine ih (Nat.le_of_succ_le_succ hk) (fun j hj => ?_) hlast
      exact hearlier (j + 1) (Nat.succ_lt_succ hj)

/-- No start needs more than twenty-eight steps, and there are scales all the way. -/
theorem iterate_lower_startScale (s : Settings) (text : String) :
    lower^[28] (startScale s text) ≤ 0.5 ∧ ∀ k ≤ 28, (lower^[k] (startScale s text)).isFinite = true := by
  have hstarts : ∀ large short : Bool,
      let start : Float := (if short then 2.5 else 1.6) * if large then 1.3 else 1.0
      lower^[28] start ≤ 0.5 ∧ ∀ k ≤ 28, (lower^[k] start).isFinite = true := by
    decide +kernel
  have hstart := hstarts s.largeText (text.length < 12)
  simp only [decide_eq_true_eq] at hstart
  exact hstart

theorem large_iff (s : Settings) (text : String) {k : ℕ} (hk : k ≤ 28) :
    0.5 < lower^[k] (startScale s text) ↔ ¬ lower^[k] (startScale s text) ≤ 0.5 := by
  rw [← Binary.not_lt_iff_le ((iterate_lower_startScale s text).2 k hk) (by decide), not_not]

end Screen

namespace Painting

open Screen

variable {α β : Type} {m : Painting α} {next : α → Painting β} {a b : α} {drawings rest : List Drawing}

def Leaves (m : Painting α) (drawings : List Drawing) : Prop :=
  ∀ calls, ∃ more, made m calls = calls ++ more ∧ more.filterMap CanvasCall.drawing? = drawings

theorem Draws.leaves (hm : Draws m a drawings) : Leaves m drawings := by
  intro calls
  obtain ⟨more, hrun, hdrawings⟩ := hm calls
  refine ⟨more, ?_, hdrawings⟩
  unfold made
  rw [hrun]

theorem leaves_throw (e : FrameError) : Leaves (throw e : Painting α) [] :=
  fun calls => ⟨[], (List.append_nil calls).symm, rfl⟩

theorem Draws.leaves_bind (hm : Draws m a drawings) (hnext : Leaves (next a) rest) :
    Leaves (m >>= next) (drawings ++ rest) := by
  intro calls
  obtain ⟨first, hfirst, hdrawings⟩ := hm calls
  obtain ⟨second, hsecond, hrest⟩ := hnext (calls ++ first)
  refine ⟨first ++ second, ?_, ?_⟩
  · unfold made at hsecond ⊢
    rw [EStateM.run_bind, hfirst, ← List.append_assoc]
    exact hsecond
  · rw [List.filterMap_append, hdrawings, hrest]

theorem Leaves.unique (h : Leaves m drawings) (h' : Leaves m rest) : drawings = rest := by
  obtain ⟨more, hmade, rfl⟩ := h []
  obtain ⟨more', hmade', rfl⟩ := h' []
  rw [List.append_cancel_left (hmade.symm.trans hmade')]

variable (width : String → Float → Int) (s : Settings) (size : WindowSize) (now : Float) (view : View)

def Stops (text : String) (room : Int) (k : ℕ) : Prop :=
  lower^[k] (startScale s text) ≤ 0.5 ∨ width text (lower^[k] (startScale s text)) ≤ room

theorem exists_isLeast_stops (text : String) (room : Int) : ∃ k ≤ 28, IsLeast {k | Stops width s text room k} k := by
  classical
  have hlast : Stops width s text room 28 := .inl (iterate_lower_startScale s text).1
  exact ⟨Nat.find ⟨28, hlast⟩, Nat.find_le hlast, Nat.isLeast_find _⟩

theorem draws_fit_of_isLeast {text : String} {room : Int} {k tries : ℕ} (hk : k ≤ 28)
    (hleast : IsLeast {k | Stops width s text room k} k) (htries : k ≤ tries) :
    Draws (fit width text room tries (startScale s text)) (lower^[k] (startScale s text)) [] := by
  have hshrink : shrink (fun scale => width text scale ≤ room) tries (startScale s text) =
      lower^[k] (startScale s text) := by
    refine shrink_eq_iterate htries (fun j hj => ?_) fun hscale => ?_
    · have hgoes : ¬ Stops width s text room j := fun hstops => (hleast.2 hstops).not_gt hj
      obtain ⟨hscale, hwide⟩ := not_or.mp hgoes
      exact ⟨(large_iff s text (hj.le.trans hk)).mpr hscale, decide_eq_false hwide⟩
    · exact decide_eq_true (hleast.1.resolve_left ((large_iff s text hk).mp hscale))
  rw [← hshrink]
  exact draws_fit width text room tries _

/-- The cursor is drawn at the column `x` when an expression is shown, at a time that it can count. -/
def cursorAt (x : Int) : List Drawing :=
  if view.mode = .expression ∧ (halfSeconds now).isFinite = true ∧ cursorShown now = true then
    [.line x 140 x 190 ⟨0, 255, 0⟩ 3]
  else []

theorem leaves_cursor (scale : Float) :
    Leaves (cursor width s size now view scale)
      (cursorAt now view (min (60 + width (toAscii view.display) scale) (30 + panelWidth s size - 10))) := by
  unfold cursor cursorAt
  by_cases hmode : view.mode = .expression
  · by_cases hfinite : (halfSeconds now).isFinite = true
    · by_cases hshown : cursorShown now = true
      · rw [if_pos hmode, if_pos hfinite, if_pos hshown, if_pos ⟨hmode, hfinite, hshown⟩]
        exact (draws_measure_bind (draws_draw _)).leaves
      · rw [if_pos hmode, if_pos hfinite, if_neg hshown, if_neg fun h => hshown h.2.2]
        exact (draws_pure ()).leaves
    · rw [if_pos hmode, if_neg hfinite, if_neg fun h => hfinite h.2.1]
      exact leaves_throw _
  · rw [if_neg hmode, if_neg fun h => hmode h.1]
    exact (draws_pure ()).leaves

/-- The text is drawn at the first scale at which it leaves a margin in the panel or that is at most one half, which is
found for any width of the panel and after at most twenty-eight steps; so a text above that scale ends within the
margin, and the cursor stands after the text if there is a margin and never farther to the right than that. -/
theorem display_settles :
    let text := toAscii view.display
    let room := panelWidth s size - 40
    let edge := 30 + panelWidth s size
    ∃ k ≤ 28, IsLeast {k | Stops width s text room k} k ∧
      (∀ tries, k ≤ tries →
        Draws (fit width text room tries (startScale s text)) (lower^[k] (startScale s text)) []) ∧
      let scale := lower^[k] (startScale s text)
      let taken := width text scale
      let x := min (60 + taken) (edge - 10)
      let colour := if alarms.contains view.display then ⟨100, 100, 255⟩ else white
      let drawings : List Drawing :=
        [.rectangle .image 30 30 edge 230 (grey 45) (-1), .rectangle .image 30 30 edge 230 ⟨100, 200, 255⟩ 3,
          .text (title view) 50 70 .duplex 0.9 (grey 200) 2, .text text 50 180 .duplex scale colour 3] ++
        cursorAt now view x
      Leaves (display width s size now view) drawings ∧
      (0.5 < scale → 50 + taken ≤ edge - 20) ∧
      (taken ≤ room → x = 50 + taken + 10) ∧ x ≤ edge - 10 ∧
      ((view.mode = .expression → (halfSeconds now).isFinite = true) →
        Screen.display width s size now view = drawings) := by
  intro text room edge
  obtain ⟨k, hk, hleast⟩ := exists_isLeast_stops width s text room
  have hfit : ∀ tries, k ≤ tries → Draws (fit width text room tries (startScale s text)) _ [] :=
    fun tries => draws_fit_of_isLeast width s hk hleast
  refine ⟨k, hk, hleast, hfit, ?_⟩
  intro scale taken x colour drawings
  have hleaves : Leaves (display width s size now view) drawings := by
    unfold display
    exact (draws_draw _).leaves_bind ((hfit shrinkSteps (hk.trans (by decide))).leaves_bind
      ((draws_draw _).leaves_bind (leaves_cursor width s size now view scale)))
  refine ⟨hleaves, fun hscale => ?_, fun hfits => ?_, min_le_right _ _, fun hnow => ?_⟩
  · have hfits : taken ≤ room := hleast.1.resolve_left ((large_iff s text hk).mp hscale)
    omega
  · have hx : x = 60 + taken := min_eq_left (by omega)
    omega
  · exact (draws_display width s size now view hnow).leaves.unique hleaves

end Painting

end TalkingCalculator
