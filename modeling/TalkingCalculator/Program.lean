import TalkingCalculator.CommandLine.Choices
import TalkingCalculator.Session.Run

/-!
# The program

The command line is read, the journal is opened, and a session is run. The exit status tells a failure by 1 and
an unreadable command line by 2.
-/
namespace TalkingCalculator

namespace Program

inductive Result where
  /-- The command line ended the program. -/
  | stopped (stop : CommandLine.Stop) (journal : Journal)
  /-- There was no level to open the journal with, and no session began. -/
  | unopened (journal : Journal)
  | finished (run : Run) (journal : Journal)
deriving DecidableEq

/-- Runs the program with a journal that it opens, again if it was open before. -/
def runTurns (before : Journal) (args : List String) (offer : Engine.Offer) (canvas : Canvas) (last : Exposure)
    (turns : List Turn) : Result :=
  match CommandLine.choose args with
  | .error stop => .stopped stop (before.tellAll (stop.lines.map .line))
  | .ok c =>
    match c.logLevel with
    | none => .unopened before
    | some level =>
      let r := Run.ofSession canvas last (.start c.settings offer) turns
      let journal := before.start level c.logFile.path?.isSome
      .finished r
        (journal.tellAll ((Engine.startRecords c.settings offer).map .record ++ r.notices))

/-- Runs the program with a plain canvas that never fails, a clock that stands still, and one playback. -/
def run (before : Journal) (args : List String) (offer : Engine.Offer) (p : Playback) (now : Float)
    (waits : List Wait) : Result :=
  runTurns before args offer .plain (.drawn now) (waits.map fun w => ⟨.drawn now, w, p⟩)

/-- The file that the command line names for the journal. -/
def journalPath? (args : List String) : Option String :=
  match CommandLine.choose args with
  | .ok c => c.logFile.path?
  | .error _ => none

def exitStatus : Ending → Nat
  | .quit | .interrupted => 0
  | .failed _ => 1

namespace Result

def status : Result → Nat
  | stopped stop _ => stop.status
  | unopened _ => 1
  | finished r _ => exitStatus r.ending

def journal : Result → Journal
  | stopped _ j => j
  | unopened j => j
  | finished _ j => j

/-- Why no session began, unless the command line ended the program. -/
def error? : Result → Option String
  | unopened _ => some "attribute name must be string, not 'list'"
  | stopped .. | finished .. => none

end Result

end Program

end TalkingCalculator
