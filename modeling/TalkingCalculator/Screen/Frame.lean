import TalkingCalculator.Calculator.Basic
import TalkingCalculator.Screen.Ascii
import TalkingCalculator.Screen.Canvas
import TalkingCalculator.Screen.Drawing
import TalkingCalculator.Settings

/-!
# Frames

A frame shows the display, in equation mode the three coefficients, on demand a guide to the keys, and for
some frames a message, which fades at the end.
-/
namespace TalkingCalculator

/-- A message and the number of frames for which it is still shown. -/
structure Feedback where
  message : String
  colour : Colour
  timer : Int
deriving DecidableEq, Repr

namespace Feedback

def silent : Feedback :=
  ⟨"", ⟨0, 255, 0⟩, 0⟩

def tick (f : Feedback) : Feedback :=
  if f.timer ≤ 0 then f else { f with timer := f.timer - 1 }

end Feedback

structure Frame where
  size : WindowSize
  drawings : List Drawing
deriving DecidableEq

inductive FrameError where
  | canvas (e : CanvasError)
  /-- The half seconds that the cursor counts are infinite or NaN. -/
  | halfSeconds (count : Float)
  /-- A whole number is too great for a double. -/
  | tooGreat
deriving DecidableEq

def FrameError.message : FrameError → String
  | canvas e => e.message
  | halfSeconds count =>
    if count.isNaN then "cannot convert float NaN to integer" else "cannot convert float infinity to integer"
  | tooGreat => "int too large to convert to float"

namespace Screen

def background : Colour := ⟨30, 30, 30⟩

def white : Colour := ⟨255, 255, 255⟩

def grey (level : Int) : Colour := ⟨level, level, level⟩

/-- The texts that the display shows in red. -/
def alarms : List String :=
  [expressionFailure, equationFailure, degenerateMessage]

/-- The guide takes its place from the panel. -/
def panelWidth (s : Settings) (size : WindowSize) : Int :=
  if s.showKeyGuide then size.width - 420 else size.width - 60

/-- The first of the scales `scale`, `scale - 0.1`, … that fits or is at most one half. -/
def shrink (fits : Float → Bool) : (tries : Nat) → (scale : Float) → Float
  | 0, scale => scale
  | tries + 1, scale =>
    if 0.5 < scale && !fits scale then shrink fits tries (scale - 0.1) else scale

/-- No display starts at a scale that needs more steps down to one half. -/
def shrinkSteps : Nat := 30

/-- The scale of the display, when the canvas tells the width of a text by `width`. -/
def displayScale (width : String → Float → Int) (s : Settings) (size : WindowSize) (text : String) : Float :=
  shrink (fun scale => width text scale ≤ panelWidth s size - 40) shrinkSteps
    (s.fontScale (if text.length < 12 then 2.5 else 1.6))

def halfSeconds (now : Float) : Float :=
  now * 2.0

/-- The cursor is seen in the first half of every second. -/
def cursorShown (now : Float) : Bool :=
  wholePart (halfSeconds now) % 2 = 0

def title : View → String
  | .expression _ => "CALCULADORA"
  | .equation .. => "ECUACION  ax^2 + bx + c = 0"

def cursor (width : String → Float → Int) (s : Settings) (size : WindowSize) (now : Float) (view : View) :
    List Drawing :=
  let text := toAscii view.display
  let edge := 30 + panelWidth s size
  let x := min (60 + width text (displayScale width s size text)) (edge - 10)
  if view.mode = .expression && cursorShown now then [.line x 140 x 190 ⟨0, 255, 0⟩ 3] else []

def display (width : String → Float → Int) (s : Settings) (size : WindowSize) (now : Float) (view : View) :
    List Drawing :=
  let text := toAscii view.display
  let edge := 30 + panelWidth s size
  let colour := if alarms.contains view.display then ⟨100, 100, 255⟩ else white
  [.rectangle .image 30 30 edge 230 (grey 45) (-1),
    .rectangle .image 30 30 edge 230 ⟨100, 200, 255⟩ 3,
    .text (title view) 50 70 .duplex 0.9 (grey 200) 2,
    .text text 50 180 .duplex (displayScale width s size text) colour 3] ++
  cursor width s size now view

/-- The field of the coefficient that stands at place `i`. -/
def field (s : Settings) (size : WindowSize) (k : Coefficients) (active : Slot) (i : Nat) (slot : Slot) :
    List Drawing :=
  let width := (panelWidth s size - 40) / 3
  let x := 30 + i * (width + 20)
  let border : Colour := if slot = active then ⟨0, 165, 255⟩ else grey 100
  [.rectangle .image x 260 (x + width) 370 (grey 45) (-1),
    .rectangle .image x 260 (x + width) 370 border (if slot = active then 4 else 2),
    .text slot.letter (x + 15) 290 .simplex 0.8 (grey 180) 2,
    .text (toAscii (k.get slot)) (x + 15) 345 .duplex (s.fontScale 1.2) white 2]

def fields (s : Settings) (size : WindowSize) : View → List Drawing
  | .expression _ => []
  | .equation _ k active =>
    (Slot.all.zipIdx.map fun (slot, i) => field s size k active i slot).flatten

/-- The lines of the guide: headings begin at the margin, keys are indented and explained, and an empty line
is a gap. -/
def guideLines : List (String × String) :=
  [("NUMEROS", ""), ("  0-9 .", "digitos y punto"), ("", ""),
    ("OPERACIONES", ""), ("  + - * /", "suma resta mult div"), ("  ( )", "parentesis"),
    ("  s c t", "sin cos tan"), ("", ""),
    ("CONTROL", ""), ("  Enter =", "calcular"), ("  Backspace", "borrar ultimo"),
    ("  x", "borrar todo"), ("  m", "modo ecuacion"), ("  Tab / A B C", "coeficiente"),
    ("  v", "voz on/off"), ("  ESC q", "salir")]

/-- The lines of the guide from the height `y` on. -/
def guideTexts (x : Int) : (y : Int) → List (String × String) → List Drawing
  | _, [] => []
  | y, (label, description) :: rest =>
    match label.toList with
    | [] => guideTexts x (y + 10) rest
    | ' ' :: _ =>
      .text label (x + 20) y .simplex 0.55 (grey 200) 1 ::
        .text description (x + 170) y .simplex 0.5 (grey 150) 1 :: guideTexts x (y + 26) rest
    | _ => .text label (x + 20) y .duplex 0.7 ⟨100, 200, 255⟩ 2 :: guideTexts x (y + 32) rest

def guide (s : Settings) (size : WindowSize) : List Drawing :=
  if s.showKeyGuide then
    let x := size.width - 370
    let bottom := size.height - 30
    [.rectangle .overlay x 30 (x + 340) bottom (grey 25) (-1),
      .blend s.guideOpacity (1.0 - s.guideOpacity),
      .rectangle .image x 30 (x + 340) bottom (grey 100) 2,
      .text "TECLAS" (x + 20) 70 .duplex 1.0 white 2] ++
    guideTexts x 110 guideLines
  else []

/-- How strongly a message shows that has `timer` frames left. -/
def strength (timer : Int) : Float :=
  let ratio := Float.ofInt timer / 20.0
  if 1.0 < ratio then 1.0 else ratio

def dimmed (alpha : Float) (c : Colour) : Colour :=
  let dim (level : Int) : Int := wholePart (Float.ofInt level * alpha)
  ⟨dim c.blue, dim c.green, dim c.red⟩

def message (size : WindowSize) (f : Feedback) : List Drawing :=
  if f.timer ≤ 0 then []
  else
    let alpha := strength (f.timer - 1)
    let y := size.height - 50
    [.rectangle .overlay 30 (y - 45) 570 (y + 15) (grey 40) (-1),
      .blend (alpha * 0.88) (1.0 - alpha * 0.88),
      .text (toAscii f.message) 50 y .duplex 1.1 (dimmed alpha f.colour) 2]

/-- Whether the numbers of a message that is shown are doubles. -/
def fades (f : Feedback) : Bool :=
  f.timer ≤ 0 || [f.timer - 1, f.colour.blue, f.colour.green, f.colour.red].all fun n =>
    (Float.ofInt n).isFinite

/-- Why there is no frame, if there is none: first of all a canvas is needed, then the time for the cursor, and
last the numbers of the message. -/
def fault? (canvas : Canvas) (size : WindowSize) (now : Float) (f : Feedback) (view : View) : Option FrameError :=
  match canvas.refusal? size with
  | some e => some (.canvas e)
  | none =>
    if view.mode = .expression ∧ !(halfSeconds now).isFinite then some (.halfSeconds (halfSeconds now))
    else if fades f then none
    else some .tooGreat

/-- The frame at the time `now`, in seconds, as it is drawn with the answers of a canvas. -/
def render (s : Settings) (size : WindowSize) (now : Float) (f : Feedback) (view : View)
    (canvas : Canvas := .plain) : Except FrameError Frame :=
  match fault? canvas size now f view with
  | some e => .error e
  | none =>
    .ok ⟨size, display canvas.width s size now view ++ fields s size view ++ guide s size ++ message size f⟩

end Screen

/-- The colour of the upper left pixel of a frame, on which nothing is drawn. -/
def Frame.corner? (f : Frame) : Option Colour :=
  if f.size.width = 0 ∨ f.size.height = 0 then none else some Screen.background

end TalkingCalculator
