import TalkingCalculator.Voice.Engine
import TalkingCalculator.Voice.Spoken

/-!
# The announcer

Texts wait in a queue and a worker says them one after another. A text that comes when none is being said
starts a worker, and a worker ends when it finds the queue empty. The queue holds five texts; when it is full
the oldest one gives way. A text whose playback fails counts as said, and the worker goes on.

Posting a text and one turn of a worker are the two steps of the announcer. Workers may take their turns at
once, or be put aside and run later.
-/
namespace TalkingCalculator

/-- How many texts may wait. -/
def queueCapacity : Nat := 5

/-- How the system plays texts: whether new workers are put aside, and which texts it fails on. -/
structure Playback where
  deferred : Bool
  failing : List String
deriving DecidableEq, Repr

structure Announcer where
  engine : Option Engine
  queue : List String
  /-- Whether a worker has been started that has not yet found the queue empty. -/
  speaking : Bool
  /-- How many workers have been started and have not ended. -/
  workers : Nat
  /-- The texts handed to the engine, in order. -/
  spoken : List String
  /-- Those of them whose playback failed. -/
  failed : List String
deriving DecidableEq

namespace Announcer

def start (s : Settings) (offer : Engine.Offer) : Announcer :=
  ⟨Engine.start s offer, [], false, 0, [], []⟩

/-- A text joins the queue, and the oldest one leaves it if there is no room. -/
def enqueue (queue : List String) (text : String) : List String :=
  (queue ++ [text]).drop (queue.length + 1 - queueCapacity)

theorem length_enqueue_le (queue : List String) (text : String) :
    (enqueue queue text).length ≤ queueCapacity := by
  simp only [enqueue, List.length_drop, List.length_append, List.length_singleton]
  omega

def post (a : Announcer) (text : String) : Announcer :=
  { a with
    queue := enqueue a.queue text
    speaking := true
    workers := if a.speaking then a.workers else a.workers + 1 }

/-- One turn of a worker. -/
def turn (p : Playback) (a : Announcer) : Announcer :=
  match a.queue with
  | [] => { a with speaking := false, workers := a.workers - 1 }
  | text :: queue =>
    { a with
      queue := queue
      spoken := a.spoken ++ [text]
      failed := if p.failing.contains text then a.failed ++ [text] else a.failed }

/-- All turns of a worker until it ends. -/
def finish (p : Playback) (a : Announcer) : Announcer :=
  Nat.repeat (turn p) (a.queue.length + 1) a

/-- All turns of all workers, one worker after the other. -/
def runWorkers (p : Playback) (a : Announcer) : Announcer :=
  Nat.repeat (finish p) a.workers a

/-- Whether there is a voice and it is on. -/
def accepts (a : Announcer) (s : Settings) : Bool :=
  s.voiceEnabled && a.engine.isSome

def acceptsKey (a : Announcer) (s : Settings) : Bool :=
  s.speakKeys && a.accepts s

/-- Takes a text to be said, if it is accepted. -/
def speak (p : Playback) (s : Settings) (a : Announcer) (text : String) : Announcer :=
  if a.accepts s then
    if p.deferred then a.post text else (a.post text).runWorkers p
  else a

def speakKey (p : Playback) (s : Settings) (a : Announcer) (label : String) : Announcer :=
  if s.speakKeys then a.speak p s (Spoken.key label) else a

def speakResult (p : Playback) (s : Settings) (a : Announcer) (text : String) : Announcer :=
  a.speak p s (Spoken.result text)

/-- The records of what failed between two states. -/
def failureRecords (before after : Announcer) : List Record :=
  (after.failed.drop before.failed.length).map fun _ =>
    ⟨.voice, .warning, "Error al reproducir voz: run loop already started"⟩

end Announcer

/-- Without an engine the voice is off. -/
def Settings.withEngine (s : Settings) (engine : Option Engine) : Settings :=
  if engine.isSome then s else { s with voiceEnabled := false }

end TalkingCalculator
