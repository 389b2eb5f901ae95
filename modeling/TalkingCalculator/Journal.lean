/-!
# Journal records

What happens is told in records. A record has a level and an origin, and a journal keeps the records from its
own level on.
-/
namespace TalkingCalculator

inductive Level where
  | debug
  | info
  | warning
  | error
deriving DecidableEq, Repr

namespace Level

def all : List Level :=
  [debug, info, warning, error]

def name : Level → String
  | debug => "DEBUG"
  | info => "INFO"
  | warning => "WARNING"
  | error => "ERROR"

def severity : Level → Nat
  | debug => 10
  | info => 20
  | warning => 30
  | error => 40

def ofName? (name : String) : Option Level :=
  all.find? fun l => l.name == name

end Level

/-- The part of the calculator that tells. -/
inductive Origin where
  | package
  | tokens
  | evaluation
  | equation
  | calculator
  | voice
  | keypad
deriving DecidableEq, Repr

def Origin.name : Origin → String
  | package => "calculadora_cientifica"
  | tokens => "calculadora_cientifica.core.tokenizer"
  | evaluation => "calculadora_cientifica.core.evaluator"
  | equation => "calculadora_cientifica.core.quadratic"
  | calculator => "calculadora_cientifica.core.calculator"
  | voice => "calculadora_cientifica.voice.feedback"
  | keypad => "calculadora_cientifica.app.keypad_app"

structure Record where
  origin : Origin
  level : Level
  message : String
deriving DecidableEq, Repr

namespace Record

def line (r : Record) : String :=
  r.origin.name ++ " - " ++ r.level.name ++ " - " ++ r.message

/-- Whether a journal kept from `threshold` on keeps the record. -/
def kept (threshold : Level) (r : Record) : Bool :=
  threshold.severity ≤ r.level.severity

end Record

/-- What is told to the user: a record of the journal, or a line of its own. -/
inductive Notice where
  | record (r : Record)
  | line (text : String)
deriving DecidableEq, Repr

namespace Notice

/-- The record of the notice, if the journal keeps it. -/
def record? (threshold : Option Level) : Notice → Option Record
  | record r => if threshold.any r.kept then some r else none
  | line _ => none

/-- The lines of the notice on the terminal; without a journal no record is shown. -/
def lines (threshold : Option Level) : Notice → List String
  | record r => if threshold.any r.kept then r.line.splitOn "\n" else []
  | line text => text.splitOn "\n"

end Notice

/-- The first record of a journal. -/
def journalOpened : Record :=
  ⟨.package, .debug, "Logging inicializado."⟩

/-- A journal shows its records on the terminal, between the other lines, and may write them to a file. -/
structure Journal where
  /-- The level from which records are kept; without one the journal has not been opened. -/
  threshold : Option Level
  toFile : Bool
  terminal : List String
  /-- The lines of the file, once there is one. -/
  file : Option (List String)
deriving DecidableEq, Repr

namespace Journal

def closed : Journal :=
  ⟨none, false, [], none⟩

def tell (j : Journal) (n : Notice) : Journal :=
  { j with
    terminal := j.terminal ++ n.lines j.threshold
    file := if j.toFile then
        j.file.map (· ++ (n.record? j.threshold).elim [] fun r => (Notice.record r).lines j.threshold)
      else j.file }

def tellAll (j : Journal) (ns : List Notice) : Journal :=
  ns.foldl tell j

/-- Opens the journal, or opens it again; the file is begun anew if there is to be one. -/
def start (j : Journal) (level : Level) (toFile : Bool) : Journal :=
  Journal.tell
    { j with threshold := some level, toFile, file := if toFile then some [] else j.file }
    (.record journalOpened)

end Journal

end TalkingCalculator
