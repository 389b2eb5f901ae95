import TalkingCalculator.Proofs.Screen.Ascii
import TalkingCalculator.Screen.Frame

/-!
# Painting frames

A frame is painted by calls on a canvas, one after another. The display is measured at one scale after another, as
long as the canvas says that it is too wide; the rest is drawn as it is. A painting that fails keeps the calls that
it has made. It draws what the frame consists of, and whatever the canvas says of widths, only ASCII is measured and
drawn when the texts of the calculator and the message are drawable.
-/
namespace TalkingCalculator

inductive CanvasCall where
  | measure (text : String) (scale : Float)
  | draw (drawing : Drawing)

namespace CanvasCall

def text? : CanvasCall → Option String
  | measure text _ => some text
  | draw drawing => drawing.content?

def drawing? : CanvasCall → Option Drawing
  | measure .. => none
  | draw drawing => some drawing

end CanvasCall

abbrev Painting (α : Type) := EStateM FrameError (List CanvasCall) α

namespace Painting

open Screen

section Procedures

variable (width : String → Float → Int) (s : Settings) (size : WindowSize) (now : Float) (f : Feedback) (view : View)

def draw (drawings : List Drawing) : Painting Unit :=
  modify (· ++ drawings.map .draw)

def measure (text : String) (scale : Float) : Painting Int := do
  modify (· ++ [.measure text scale])
  return width text scale

/-- Finds the first of the scales `scale`, `scale - 0.1`, … at which the text is no wider than `room`, or that is at
most one half. -/
def fit (text : String) (room : Int) : (tries : ℕ) → (scale : Float) → Painting Float
  | 0, scale => return scale
  | tries + 1, scale => do
    if 0.5 < scale then
      let taken ← measure width text scale
      if taken ≤ room then return scale else fit text room tries (scale - 0.1)
    else return scale

def cursor (scale : Float) : Painting Unit := do
  if view.mode = .expression then
    if (halfSeconds now).isFinite then
      if cursorShown now then
        let taken ← measure width (toAscii view.display) scale
        let x := min (60 + taken) (30 + panelWidth s size - 10)
        draw [.line x 140 x 190 ⟨0, 255, 0⟩ 3]
    else throw (.halfSeconds (halfSeconds now))

def display : Painting Unit := do
  let text := toAscii view.display
  let edge := 30 + panelWidth s size
  let colour := if alarms.contains view.display then ⟨100, 100, 255⟩ else white
  draw [.rectangle .image 30 30 edge 230 (grey 45) (-1), .rectangle .image 30 30 edge 230 ⟨100, 200, 255⟩ 3,
    .text (title view) 50 70 .duplex 0.9 (grey 200) 2]
  let scale ← fit width text (panelWidth s size - 40) shrinkSteps (s.fontScale (if text.length < 12 then 2.5 else 1.6))
  draw [.text text 50 180 .duplex scale colour 3]
  cursor width s size now view scale

def message : Painting Unit := do
  if fades f then draw (Screen.message size f) else throw .tooGreat

def frame (canvas : Canvas) : Painting Unit := do
  match canvas.refusal? size with
  | some e => throw (.canvas e)
  | none =>
    display canvas.width s size now view
    draw (fields s size view)
    draw (guide s size)
    message size f

end Procedures

section Agreement

variable {α β : Type}

def Draws (m : Painting α) (a : α) (drawings : List Drawing) : Prop :=
  ∀ calls, ∃ more, m.run calls = .ok a (calls ++ more) ∧ more.filterMap CanvasCall.drawing? = drawings

def Fails (m : Painting α) (e : FrameError) : Prop :=
  ∀ calls, ∃ after, m.run calls = .error e after

variable {m : Painting α} {next : α → Painting β} {a : α} {b : β} {drawings rest : List Drawing} {e : FrameError}

theorem draws_pure (a : α) : Draws (pure a) a [] :=
  fun calls => ⟨[], by rw [List.append_nil]; rfl, rfl⟩

theorem draws_draw (drawings : List Drawing) : Draws (draw drawings) () drawings := by
  refine fun calls => ⟨drawings.map .draw, rfl, ?_⟩
  rw [List.filterMap_map]
  exact List.filterMap_some

theorem Draws.bind (hm : Draws m a drawings) (hnext : Draws (next a) b rest) :
    Draws (m >>= next) b (drawings ++ rest) := by
  intro calls
  obtain ⟨first, hfirst, hdrawings⟩ := hm calls
  obtain ⟨second, hsecond, hrest⟩ := hnext (calls ++ first)
  refine ⟨first ++ second, ?_, ?_⟩
  · rw [EStateM.run_bind, hfirst, ← List.append_assoc]
    exact hsecond
  · rw [List.filterMap_append, hdrawings, hrest]

theorem Draws.fails (hm : Draws m a drawings) (hnext : Fails (next a) e) : Fails (m >>= next) e := by
  intro calls
  obtain ⟨first, hfirst, -⟩ := hm calls
  obtain ⟨after, hafter⟩ := hnext (calls ++ first)
  refine ⟨after, ?_⟩
  rw [EStateM.run_bind, hfirst]
  exact hafter

theorem Fails.bind (hm : Fails m e) (next : α → Painting β) : Fails (m >>= next) e := by
  intro calls
  obtain ⟨after, hafter⟩ := hm calls
  refine ⟨after, ?_⟩
  rw [EStateM.run_bind, hafter]

theorem fails_throw (e : FrameError) : Fails (throw e : Painting α) e :=
  fun calls => ⟨calls, rfl⟩

theorem draws_measure_bind {width : String → Float → Int} {text : String} {scale : Float} {next : Int → Painting β}
    (hnext : Draws (next (width text scale)) b rest) : Draws (measure width text scale >>= next) b rest := by
  have hmeasure : Draws (measure width text scale) (width text scale) [] :=
    fun _ => ⟨[.measure text scale], rfl, rfl⟩
  exact hmeasure.bind hnext

variable (width : String → Float → Int) (s : Settings) (size : WindowSize) (now : Float) (f : Feedback) (view : View)

theorem draws_fit (text : String) (room : Int) (tries : ℕ) (scale : Float) :
    Draws (fit width text room tries scale) (shrink (fun scale => width text scale ≤ room) tries scale) [] := by
  induction tries generalizing scale with
  | zero => exact draws_pure scale
  | succ tries ih =>
    unfold fit shrink
    by_cases hlarge : 0.5 < scale
    · rw [if_pos hlarge]
      refine draws_measure_bind ?_
      by_cases hfits : width text scale ≤ room
      · rw [if_pos hfits, if_neg (by simp [hfits])]
        exact draws_pure scale
      · rw [if_neg hfits, if_pos (by simp [hlarge, hfits])]
        exact ih (scale - 0.1)
    · rw [if_neg hlarge, if_neg (by simp [hlarge])]
      exact draws_pure scale

theorem draws_cursor (hnow : view.mode = .expression → (halfSeconds now).isFinite = true) :
    Draws (cursor width s size now view (displayScale width s size (toAscii view.display))) ()
      (Screen.cursor width s size now view) := by
  unfold cursor Screen.cursor
  dsimp only
  by_cases hmode : view.mode = .expression
  · rw [if_pos hmode, if_pos (hnow hmode)]
    by_cases hshown : cursorShown now = true
    · rw [if_pos hshown, if_pos (by simp [hmode, hshown])]
      exact draws_measure_bind (draws_draw _)
    · rw [if_neg hshown, if_neg (by simp [hshown])]
      exact draws_pure ()
  · rw [if_neg hmode, if_neg (by simp [hmode])]
    exact draws_pure ()

theorem fails_cursor (hmode : view.mode = .expression) (hnow : ¬ (halfSeconds now).isFinite = true) (scale : Float) :
    Fails (cursor width s size now view scale) (.halfSeconds (halfSeconds now)) := by
  unfold cursor
  rw [if_pos hmode, if_neg hnow]
  exact fails_throw _

theorem draws_display (hnow : view.mode = .expression → (halfSeconds now).isFinite = true) :
    Draws (display width s size now view) () (Screen.display width s size now view) := by
  unfold display Screen.display
  exact (draws_draw _).bind ((draws_fit _ _ _ _ _).bind
    ((draws_draw _).bind (draws_cursor width s size now view hnow)))

theorem fails_display (hmode : view.mode = .expression) (hnow : ¬ (halfSeconds now).isFinite = true) :
    Fails (display width s size now view) (.halfSeconds (halfSeconds now)) := by
  unfold display
  exact (draws_draw _).fails ((draws_fit _ _ _ _ _).fails
    ((draws_draw _).fails (fails_cursor width s size now view hmode hnow _)))

/-- A painting draws what the frame consists of, and fails when there is no frame. -/
theorem frame_render (canvas : Canvas) :
    match render s size now f view canvas with
    | .ok image => Draws (frame s size now f view canvas) () image.drawings
    | .error e => Fails (frame s size now f view canvas) e := by
  unfold frame render fault?
  cases hcanvas : canvas.refusal? size with
  | some e => exact fails_throw _
  | none =>
    dsimp only
    by_cases hhalf : view.mode = .expression ∧ (!(halfSeconds now).isFinite) = true
    · rw [if_pos hhalf]
      exact (fails_display canvas.width s size now view hhalf.1 (by simpa using hhalf.2)).bind _
    · have hdisplay := draws_display canvas.width s size now view fun hmode => by simpa [hmode] using hhalf
      rw [if_neg hhalf]
      unfold message
      by_cases hfades : fades f = true
      · rw [if_pos hfades, if_pos hfades]
        rw [List.append_assoc, List.append_assoc]
        exact hdisplay.bind ((draws_draw _).bind ((draws_draw _).bind (draws_draw _)))
      · rw [if_neg hfades, if_neg hfades]
        exact hdisplay.fails ((draws_draw _).fails ((draws_draw _).fails (fails_throw _)))

end Agreement

section Ascii

variable {α β : Type}

def AllAscii (calls : List CanvasCall) : Prop :=
  ∀ call ∈ calls, ∀ text ∈ call.text?, IsAscii text

def AsciiTexts (drawings : List Drawing) : Prop :=
  ∀ d ∈ drawings, ∀ text ∈ d.content?, IsAscii text

/-- The calls that a painting leaves behind, whether or not it fails. -/
def made (m : Painting α) (calls : List CanvasCall) : List CanvasCall :=
  match m.run calls with
  | .ok _ after => after
  | .error _ after => after

def AddsAscii (m : Painting α) : Prop :=
  ∀ calls, AllAscii calls → AllAscii (made m calls)

variable {m : Painting α} {next : α → Painting β}

theorem addsAscii_pure (a : α) : AddsAscii (pure a) :=
  fun _ h => h

theorem addsAscii_throw (e : FrameError) : AddsAscii (throw e : Painting α) :=
  fun _ h => h

theorem AddsAscii.bind (hm : AddsAscii m) (hnext : ∀ a, AddsAscii (next a)) : AddsAscii (m >>= next) := by
  intro calls hcalls
  have hfirst := hm calls hcalls
  unfold made at hfirst
  unfold made
  rw [EStateM.run_bind]
  cases hm : m.run calls with
  | ok a after =>
    rw [hm] at hfirst
    exact hnext a after hfirst
  | error e after =>
    rw [hm] at hfirst
    exact hfirst

theorem addsAscii_draw {drawings : List Drawing} (h : AsciiTexts drawings) : AddsAscii (draw drawings) := by
  intro calls hcalls
  exact List.forall_mem_append.mpr ⟨hcalls, List.forall_mem_map.mpr h⟩

variable {width : String → Float → Int} {text : String}

theorem addsAscii_measure (htext : IsAscii text) (scale : Float) : AddsAscii (measure width text scale) := by
  intro calls hcalls
  refine List.forall_mem_append.mpr ⟨hcalls, ?_⟩
  rintro call hcall other hother
  rw [List.mem_singleton.mp hcall] at hother
  cases hother
  exact htext

theorem addsAscii_fit (htext : IsAscii text) (room : Int) (tries : ℕ) (scale : Float) :
    AddsAscii (fit width text room tries scale) := by
  induction tries generalizing scale with
  | zero => exact addsAscii_pure scale
  | succ tries ih =>
    unfold fit
    split
    · refine (addsAscii_measure htext scale).bind fun taken => ?_
      split
      · exact addsAscii_pure scale
      · exact ih (scale - 0.1)
    · exact addsAscii_pure scale

variable {s : Settings} {size : WindowSize} {now : Float} {f : Feedback} {view : View}

theorem addsAscii_cursor (h : Drawable view.display) (scale : Float) :
    AddsAscii (cursor width s size now view scale) := by
  unfold cursor
  split
  · split
    · split
      · refine (addsAscii_measure h.isAscii_toAscii scale).bind fun taken => addsAscii_draw ?_
        simp [AsciiTexts, Drawing.content?]
      · exact addsAscii_pure ()
    · exact addsAscii_throw _
  · exact addsAscii_pure ()

theorem isAscii_title (view : View) : IsAscii (title view) := by
  have htitles : IsAscii "CALCULADORA" ∧ IsAscii "ECUACION  ax^2 + bx + c = 0" := by decide
  cases view with
  | expression => exact htitles.1
  | equation => exact htitles.2

theorem addsAscii_display (h : Drawable view.display) : AddsAscii (display width s size now view) := by
  unfold display
  refine (addsAscii_draw ?_).bind fun _ => (addsAscii_fit h.isAscii_toAscii _ _ _).bind fun scale =>
    (addsAscii_draw ?_).bind fun _ => addsAscii_cursor h scale
  · simp [AsciiTexts, Drawing.content?, isAscii_title]
  · simp [AsciiTexts, Drawing.content?, h.isAscii_toAscii]

theorem asciiTexts_field {k : Coefficients} {slot : Slot} (h : Drawable (k.get slot)) (active : Slot) (i : ℕ) :
    AsciiTexts (field s size k active i slot) := by
  have hletter : IsAscii slot.letter := by cases slot <;> decide
  simp [AsciiTexts, field, Drawing.content?, hletter, h.isAscii_toAscii]

theorem asciiTexts_fields {c : Calculator} (hc : c.AllDrawable) : AsciiTexts (fields s size c.view) := by
  unfold Calculator.view
  cases c.mode with
  | expression => exact fun d hd => absurd hd List.not_mem_nil
  | equation =>
    intro d hd
    obtain ⟨drawings, hdrawings, hd⟩ := List.mem_flatten.mp hd
    obtain ⟨⟨slot, i⟩, -, rfl⟩ := List.mem_map.mp hdrawings
    exact asciiTexts_field (hc.coefficients slot) c.active i d hd

theorem asciiTexts_guideTexts (x : Int) {lines : List (String × String)}
    (h : ∀ line ∈ lines, IsAscii line.1 ∧ IsAscii line.2) (y : Int) : AsciiTexts (guideTexts x y lines) := by
  induction lines generalizing y with
  | nil => exact fun d hd => absurd hd List.not_mem_nil
  | cons line lines ih =>
    obtain ⟨⟨hlabel, hdescription⟩, hlines⟩ := List.forall_mem_cons.mp h
    have ih := ih hlines
    unfold guideTexts
    split
    · exact ih (y + 10)
    · refine List.forall_mem_cons.mpr ⟨?_, List.forall_mem_cons.mpr ⟨?_, ih (y + 26)⟩⟩
      · simp [Drawing.content?, hlabel]
      · simp [Drawing.content?, hdescription]
    · refine List.forall_mem_cons.mpr ⟨?_, ih (y + 32)⟩
      simp [Drawing.content?, hlabel]

theorem asciiTexts_guide : AsciiTexts (guide s size) := by
  have hlines : ∀ line ∈ guideLines, IsAscii line.1 ∧ IsAscii line.2 := by decide
  have hheading : IsAscii "TECLAS" := by decide
  unfold guide
  split
  · refine List.forall_mem_append.mpr ⟨?_, asciiTexts_guideTexts _ hlines 110⟩
    simp [Drawing.content?, hheading]
  · exact fun d hd => absurd hd List.not_mem_nil

theorem asciiTexts_message (h : Drawable f.message) : AsciiTexts (Screen.message size f) := by
  unfold Screen.message
  split
  · exact fun d hd => absurd hd List.not_mem_nil
  · simp [AsciiTexts, Drawing.content?, h.isAscii_toAscii]

theorem display_view (c : Calculator) : c.view.display = c.display := by
  unfold Calculator.view
  cases c.mode <;> rfl

/-- Only ASCII is measured and drawn for a frame, also when the painting fails. -/
theorem addsAscii_frame {c : Calculator} (hc : c.AllDrawable) (hmessage : Drawable f.message) (canvas : Canvas) :
    AddsAscii (frame s size now f c.view canvas) := by
  have hdisplay : Drawable c.view.display := by
    rw [display_view]
    exact hc.display
  unfold frame message
  split
  · exact addsAscii_throw _
  · refine (addsAscii_display hdisplay).bind fun _ => (addsAscii_draw (asciiTexts_fields hc)).bind fun _ =>
      (addsAscii_draw asciiTexts_guide).bind fun _ => ?_
    split
    · exact addsAscii_draw (asciiTexts_message hmessage)
    · exact addsAscii_throw _

end Ascii

end Painting

end TalkingCalculator
