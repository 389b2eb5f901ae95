import TalkingCalculator.Session.Basic

/-!
# Running a session

A run opens a window and then takes one turn after another: it draws a frame and waits for a key. It ends when a key
quits, when the user interrupts it, or when drawing or waiting fails, and it closes the window in every case. What the
canvas, the clock, the user and the voice do in a turn is not for the run to decide.
-/
namespace TalkingCalculator

/-- What drawing a frame comes to, as far as the session has no part in it. -/
inductive Exposure where
  /-- The calls on the canvas succeed at the time `now`, in seconds. -/
  | drawn (now : Float)
  /-- One of them fails. -/
  | failure (message : String)
deriving DecidableEq

/-- What waiting for a key comes to. -/
inductive Wait where
  /-- The code of a key, or -1 when none was pressed in time. -/
  | code (n : Int)
  | interrupt
  | failure (message : String)
deriving DecidableEq, Repr

namespace Wait

/-- The failure of a wait that gives no whole number. -/
def notWhole (v : Value) : Wait :=
  .failure ("unsupported operand type(s) for &: '" ++ v.kind ++ "' and 'int'")

/-- The wait that gives a value. -/
def ofValue : Value → Wait
  | .whole n => .code n
  | .truth b => .code (if b then 1 else 0)
  | .real x => if x == -1.0 then .code (-1) else notWhole (.real x)
  | v => notWhole v

end Wait

/-- What a turn of a run meets: the drawing of its frame, the wait after it, and the playback of what is then read
aloud. -/
structure Turn where
  exposure : Exposure
  wait : Wait
  playback : Playback
deriving DecidableEq

namespace Session

/-- Draws a frame, unless a call on the canvas or the session itself keeps it from being drawn. -/
def expose (s : Session) (canvas : Canvas) : Exposure → Except String (Frame × Session)
  | .drawn now => (s.render now canvas).mapError FrameError.message
  | .failure message => .error message

end Session

inductive Ending where
  | quit
  | interrupted
  | failed (message : String)
deriving DecidableEq, Repr

/-- What a run does that can be seen. -/
inductive Action where
  | openWindow (name : String)
  | draw (frame : Frame)
  | wait (outcome : Wait)
  | tell (notice : Notice)
  | closeWindows
deriving DecidableEq

namespace Action

def frame? : Action → Option Frame
  | draw f => some f
  | _ => none

def notice? : Action → Option Notice
  | tell n => some n
  | _ => none

end Action

/-- A finished run: what it did, how it ended, the session at the end, and the turns whose waits it did not reach. -/
structure Run where
  actions : List Action
  ending : Ending
  session : Session
  left : List Turn
deriving DecidableEq

namespace Run

def after (actions : List Action) (r : Run) : Run :=
  { r with actions := actions ++ r.actions }

/-- Takes turns until the session ends. When none is left, a frame is drawn for the last time and the key is escape. -/
def loop (canvas : Canvas) (last : Exposure) (s : Session) : List Turn → Run
  | [] =>
    match s.expose canvas last with
    | .error message => ⟨[], .failed message, s, []⟩
    | .ok (frame, s) => ⟨[.draw frame, .wait (.code KeyCode.escape)], .quit, s, []⟩
  | t :: turns =>
    match s.expose canvas t.exposure with
    | .error message => ⟨[], .failed message, s, t :: turns⟩
    | .ok (frame, s) =>
      let seen := [.draw frame, .wait t.wait]
      match t.wait with
      | .interrupt => ⟨seen, .interrupted, s, turns⟩
      | .failure message => ⟨seen, .failed message, s, turns⟩
      | .code n =>
        if n = -1 then (loop canvas last s turns).after seen
        else
          let code := KeyCode.masked n
          match s.press? t.playback code with
          | none => ⟨seen, .quit, s, turns⟩
          | some next => (loop canvas last next turns).after (seen ++ (s.pressNotices t.playback code).map .tell)

def windowName : String := "Calculadora"

def rule : String := String.ofList (List.replicate 70 '=')

/-- What is told before the window opens. -/
def welcome (s : Settings) : List String :=
  ["", rule, "CALCULADORA - EXPRESIONES Y ECUACIONES CUADRATICAS", rule,
    "", "Digitos 0-9 y '.', operadores + - * /, parentesis ( )",
    "Funciones: s = sin, c = cos, t = tan",
    "Enter o '=': calcular | Backspace: borrar | x: borrar todo",
    "m: modo ecuacion | Tab o A/B/C: coeficiente activo"] ++
  (if s.voiceEnabled then ["", "FEEDBACK POR VOZ: Activado ('v' para desactivar)"] else []) ++
  ["", "Presiona ESC o 'q' para salir", "", rule, ""]

def windowRecord (size : WindowSize) : Record :=
  ⟨.keypad, .info, "Ventana abierta (" ++ toString size.width ++ "x" ++ toString size.height ++ ")"⟩

def opening (s : Session) : List Action :=
  (welcome s.settings).map (fun l => .tell (.line l)) ++
    [.openWindow windowName, .tell (.record (windowRecord s.size))]

/-- What is told after the window has closed. -/
def farewell : Ending → List String
  | .quit => ["", "OK Aplicacion cerrada correctamente"]
  | .interrupted => ["", "Interrumpido por el usuario"]
  | .failed message => ["", "Error: " ++ message]

def closing (e : Ending) : List Action :=
  .closeWindows :: (farewell e).map fun l => .tell (.line l)

/-- A session from its window's opening to its closing. -/
def ofSession (canvas : Canvas) (last : Exposure) (s : Session) (turns : List Turn) : Run :=
  let r := loop canvas last s turns
  { r with actions := opening s ++ r.actions ++ closing r.ending }

def frames (r : Run) : List Frame :=
  r.actions.filterMap Action.frame?

def notices (r : Run) : List Notice :=
  r.actions.filterMap Action.notice?

end Run

end TalkingCalculator
