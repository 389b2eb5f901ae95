import TalkingCalculator.Calculator.Journal
import TalkingCalculator.Screen.Frame
import TalkingCalculator.Session.Binding
import TalkingCalculator.Voice.Announcer

/-!
# Sessions

A session joins the calculator with a screen and an announcer. Every event first goes to the calculator; the
screen then shows a message about it, and the announcer may read it aloud. Neither changes the calculator.
-/
namespace TalkingCalculator

/-- An event that the calculator took has no label to be shown or read. -/
inductive LabelError where
  | operatorText
  | functionText
  | digitNumber
deriving DecidableEq, Repr

def LabelError.message : LabelError → String
  | operatorText => "'str' object has no attribute 'glyph'"
  | functionText => "'str' object has no attribute 'value'"
  | digitNumber => "'int' object has no attribute 'rstrip'"

inductive ProcessError where
  | refused (e : EventError)
  | unlabelled (e : LabelError)

def ProcessError.message : ProcessError → String
  | refused e => e.message
  | unlabelled e => e.message

structure Session where
  settings : Settings
  size : WindowSize
  calculator : Calculator
  feedback : Feedback
  announcer : Announcer
deriving DecidableEq

namespace Session

/-- The window keeps the size that the settings had at the start. -/
def start (s : Settings) (offer : Engine.Offer) : Session where
  settings := s.withEngine (Engine.start s offer)
  size := ⟨s.windowWidth, s.windowHeight⟩
  calculator := .fresh
  feedback := .silent
  announcer := .start s offer

def notifyFor (s : Session) (frames : Int) (colour : Colour) (message : String) : Session :=
  { s with feedback := ⟨message, colour, frames⟩ }

/-- Shows a message for the usual time. -/
def notify (s : Session) (colour : Colour) (message : String) : Session :=
  s.notifyFor s.settings.feedbackFrames colour message

def speak (p : Playback) (s : Session) (text : String) : Session :=
  { s with announcer := s.announcer.speak p s.settings text }

def speakKey (p : Playback) (s : Session) (label : String) : Session :=
  { s with announcer := s.announcer.speakKey p s.settings label }

def speakResult (p : Playback) (s : Session) (text : String) : Session :=
  { s with announcer := s.announcer.speakResult p s.settings text }

/-- Digits and the point are shown in green. -/
def showDigit (p : Playback) (s : Session) (label : String) : Session :=
  (s.notify ⟨100, 255, 100⟩ ("OK " ++ label)).speakKey p label

/-- Operators, functions and parentheses are shown in orange. -/
def showSign (p : Playback) (s : Session) (label : String) : Session :=
  (s.notify ⟨0, 165, 255⟩ label).speakKey p label

def showOutcome (p : Playback) (s : Session) (o : Outcome) : Session :=
  (if o.success then s.notifyFor 60 ⟨255, 255, 0⟩ ("= " ++ o.text)
    else s.notify ⟨50, 50, 255⟩ o.text).speakResult p o.text

def modeTitle : Mode → String × String
  | .expression => ("EXPRESION", "expresion")
  | .equation => ("ECUACION", "ecuacion")

def showMode (p : Playback) (s : Session) : Session :=
  let (title, name) := modeTitle s.calculator.mode
  (s.notifyFor 60 ⟨255, 200, 0⟩ ("MODO " ++ title)).speak p ("modo " ++ name)

def showFocus (s : Session) : Session :=
  s.notify ⟨255, 200, 0⟩ ("COEFICIENTE " ++ s.calculator.active.letter)

/-- What is shown and read for an event that the calculator has taken. -/
def acknowledge (p : Playback) (s : Session) (o : Option Outcome) : Event → Session × Option LabelError
  | .digit (.whole n) =>
    if s.settings.speakKeys then
      (s.notify ⟨100, 255, 100⟩ ("OK " ++ (Value.whole n).plain), some .digitNumber)
    else (s.showDigit p (Value.whole n).plain, none)
  | .digit value => (s.showDigit p value.plain, none)
  | .point => (s.showDigit p ".", none)
  | .operator (.known op) => (s.showSign p op.glyph.toString, none)
  | .operator (.given _) => (s, some .operatorText)
  | .function (.known f) => (s.showSign p f.opening, none)
  | .function (.given _) => (s, some .functionText)
  | .openParen => (s.showSign p "(", none)
  | .closeParen => (s.showSign p ")", none)
  | .clear => ((s.notify ⟨50, 50, 255⟩ "TODO BORRADO").speak p "todo borrado", none)
  | .delete => (s.notifyFor (s.settings.feedbackFrames / 2) ⟨0, 200, 255⟩ "<- BORRADO", none)
  | .toggleMode => (s.showMode p, none)
  | .cycleFocus | .focus _ => (s.showFocus, none)
  | .commit => (o.elim s (s.showOutcome p), none)
  | .unknown _ => (s, none)

/-- Hands an event to the calculator and acknowledges it. -/
def process (p : Playback) (s : Session) (event : Event) :
    Session × Except ProcessError (Option Outcome) :=
  match s.calculator.handle event with
  | .error e => (s, .error (.refused e))
  | .ok (c, outcome) =>
    match acknowledge p { s with calculator := c } outcome event with
    | (s, none) => (s, .ok outcome)
    | (s, some e) => (s, .error (.unlabelled e))

def toggleVoice (p : Playback) (s : Session) : Session :=
  let enabled := !s.settings.voiceEnabled
  let s := { s with settings := { s.settings with voiceEnabled := enabled } }
  let s := s.notifyFor 60 ⟨255, 255, 0⟩ (if enabled then "VOZ ACTIVADA" else "VOZ DESACTIVADA")
  if enabled then s.speak p "voz activada" else s

/-- What a key code does, or nothing when it ends the session. -/
def press? (p : Playback) (s : Session) (code : Int) : Option Session :=
  if code = KeyCode.escape ∨ code = KeyCode.quit then none
  else if code = KeyCode.voice then some (s.toggleVoice p)
  else match KeyCode.key? code with
    | some key => some (s.process p key.event).1
    | none => some s

/-- What is told while an event is processed. -/
def processNotices (p : Playback) (s : Session) (event : Event) : List Notice :=
  (s.calculator.handleRecords event ++
    Announcer.failureRecords s.announcer (s.process p event).1.announcer).map .record

def toggleVoiceNotices (p : Playback) (s : Session) : List Notice :=
  .line (if s.settings.voiceEnabled then "Voz: DESACTIVADA" else "Voz: ACTIVADA") ::
    (Announcer.failureRecords s.announcer (s.toggleVoice p).announcer).map .record

/-- What is told for a key code. -/
def pressNotices (p : Playback) (s : Session) (code : Int) : List Notice :=
  if code = KeyCode.escape ∨ code = KeyCode.quit then []
  else if code = KeyCode.voice then s.toggleVoiceNotices p
  else match KeyCode.key? code with
    | some key => s.processNotices p key.event
    | none => []

/-- Draws a frame, after which the message has one frame less to be shown. -/
def render (s : Session) (now : Float) (canvas : Canvas := .plain) : Except FrameError (Frame × Session) :=
  match Screen.render s.settings s.size now s.feedback s.calculator.view canvas with
  | .error e => .error e
  | .ok frame => .ok (frame, { s with feedback := s.feedback.tick })

end Session

end TalkingCalculator
