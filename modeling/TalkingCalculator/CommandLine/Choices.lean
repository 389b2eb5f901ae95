import TalkingCalculator.CommandLine.Argument
import TalkingCalculator.Journal
import TalkingCalculator.Settings
import TalkingCalculator.Text.Integer

/-!
# What the command line chooses

All arguments are first told apart, and options then take effect from left to right, the later of two in the
place of the earlier. The help and the version end the reading at once; arguments that belong to no option are an
error at the end. An option whose value should be a lone double dash has none.
-/
namespace TalkingCalculator

namespace CommandLine

/-- What is said of the file that the journal is written to. -/
inductive LogFile where
  | unsaid
  /-- The option was there, without a value. -/
  | unnamed
  | path (name : String)
deriving DecidableEq, Repr

/-- The path of the file, if there is one; the empty path is none. -/
def LogFile.path? : LogFile → Option String
  | unsaid | unnamed => none
  | path name => if name = "" then none else some name

structure Choices where
  noVoice : Bool
  speakKeys : Bool
  width : Option Int
  height : Option Int
  largeText : Bool
  noGuide : Bool
  /-- Without a level the journal cannot be opened. -/
  logLevel : Option Level
  logFile : LogFile
deriving DecidableEq, Repr

def Choices.initial : Choices :=
  ⟨false, false, none, none, false, false, some .info, .unsaid⟩

/-- A size of zero leaves the usual one. -/
def Choices.settings (c : Choices) : Settings :=
  let usual := Settings.standard
  let size (given : Option Int) (usual : Int) : Int :=
    match given with
    | some n => if n = 0 then usual else n
    | none => usual
  { usual with
    voiceEnabled := !c.noVoice
    speakKeys := c.speakKeys
    largeText := c.largeText
    showKeyGuide := !c.noGuide
    windowWidth := size c.width usual.windowWidth
    windowHeight := size c.height usual.windowHeight }

inductive UsageError where
  | ambiguous (arg : String) (names : List String)
  | missingValue (o : Switch)
  | unwantedValue (o : Switch) (text : String)
  | notInteger (o : Switch) (text : String)
  | notLevel (text : String)
  | unrecognized (args : List String)
deriving DecidableEq, Repr

def Switch.title (o : Switch) : String :=
  "argument " ++ "/".intercalate o.names ++ ": "

def UsageError.message : UsageError → String
  | ambiguous arg names => "ambiguous option: " ++ arg ++ " could match " ++ ", ".intercalate names
  | missingValue o => o.title ++ "expected one argument"
  | unwantedValue o text => o.title ++ "ignored explicit argument " ++ Text.quote text
  | notInteger o text => o.title ++ "invalid int value: " ++ Text.quote text
  | notLevel text => Switch.logLevel.title ++ "invalid choice: " ++ Text.quote text ++ " (choose from " ++
      ", ".intercalate (Level.all.map fun l => Text.quote l.name) ++ ")"
  | unrecognized args => "unrecognized arguments: " ++ " ".intercalate args

/-- Why reading ends before its choices are made. -/
inductive Stop where
  | help
  | version
  | usage (e : UsageError)
deriving DecidableEq, Repr

/-- An option and its value, if it has one. -/
structure Occurrence where
  option : Switch
  value : Option String
deriving DecidableEq, Repr

namespace Occurrence

/-- An option with a text attached as its value, where a lone double dash is no value. -/
def attaching (o : Switch) (text : List Char) : Occurrence :=
  ⟨o, if text = ['-', '-'] then none else some (String.ofList text)⟩

end Occurrence

/-- A size given on the command line, none if the option has no value. -/
def sizeValue (o : Switch) : Option String → Except Stop (Option Int)
  | none => .ok none
  | some text =>
    match Text.readInteger? text with
    | some n => .ok (some n)
    | none => .error (.usage (.notInteger o text))

/-- A level given on the command line, none if the option has no value. -/
def levelValue : Option String → Except Stop (Option Level)
  | none => .ok none
  | some text =>
    match Level.ofName? text with
    | some l => .ok (some l)
    | none => .error (.usage (.notLevel text))

/-- The effect of an option. -/
def Choices.apply (c : Choices) (o : Occurrence) : Except Stop Choices :=
  match o.option with
  | .help => .error .help
  | .version => .error .version
  | .noVoice => .ok { c with noVoice := true }
  | .speakKeys => .ok { c with speakKeys := true }
  | .largeText => .ok { c with largeText := true }
  | .noGuide => .ok { c with noGuide := true }
  | .logFile => .ok { c with logFile := o.value.elim .unnamed .path }
  | .width => (sizeValue .width o.value).map fun width => { c with width }
  | .height => (sizeValue .height o.value).map fun height => { c with height }
  | .logLevel => (levelValue o.value).map fun logLevel => { c with logLevel }

def Choices.applyAll (c : Choices) (os : List Occurrence) : Except Stop Choices :=
  os.foldlM Choices.apply c

/-- What one argument holds: options that are complete, or one whose value is the next argument. -/
inductive Holding where
  | complete (occurrences : List Occurrence)
  | wanting (o : Switch)
deriving DecidableEq, Repr

/-- The options that a text spells, each by one letter, after the option `o`, which takes no value and has one
dash. A letter that names none leaves the rest of the text to the option before it, which has no use for it. -/
def cluster (o : Switch) : (text : List Char) → Except UsageError (List Occurrence)
  | [] => .ok [⟨o, none⟩]
  | c :: text =>
    match Switch.ofName? ['-', c] with
    | none => .error (.unwantedValue o (String.ofList (c :: text)))
    | some next => (cluster next text).map (⟨o, none⟩ :: ·)

/-- What an option holds with the text attached to it. No option with one dash takes a value. -/
def holding (o : Switch) (short : Bool) : (attached : Option (List Char)) → Except UsageError Holding
  | none => .ok (if o.takesValue then .wanting o else .complete [⟨o, none⟩])
  | some text =>
    if o.takesValue then .ok (.complete [.attaching o text])
    else if short && text ≠ [] then (cluster o text).map .complete
    else .error (.unwantedValue o (String.ofList text))

/-- Reads arguments that have been told apart. `extras` are those that belong to no option. -/
def read (c : Choices) (extras : List String) : List (String × Argument) → Except Stop Choices
  | [] => if extras = [] then .ok c else .error (.usage (.unrecognized extras))
  | (arg, .plain) :: rest | (arg, .unknown) :: rest => read c (extras ++ [arg]) rest
  | (_, .option o short attached) :: rest =>
    match holding o short attached, rest with
    | .error e, _ => .error (.usage e)
    | .ok (.complete occurrences), rest => do
      let c ← c.applyAll occurrences
      read c extras rest
    | .ok (.wanting o), (value, .plain) :: rest => do
      let c ← c.apply ⟨o, some value⟩
      read c extras rest
    | .ok (.wanting o), _ => .error (.usage (.missingValue o))

/-- Tells arguments apart. After a lone double dash all of them are plain; it takes no value itself. -/
def classifyAll : List String → Except UsageError (List (String × Argument))
  | [] => .ok []
  | arg :: rest =>
    if arg = "--" then .ok ((arg, .unknown) :: rest.map fun a => (a, .plain))
    else
      match Argument.classify arg with
      | .error names => .error (.ambiguous arg names)
      | .ok meaning => (classifyAll rest).map fun args => (arg, meaning) :: args

def choose (args : List String) : Except Stop Choices :=
  match classifyAll args with
  | .error e => .error (.usage e)
  | .ok args => read .initial [] args

def versionText : String := "calculadora-cientifica 1.0.0"

def helpLines : List String :=
  ["usage: calculadora-cientifica [-h] [--no-voice] [--speak-keys] [--width WIDTH]",
    "                              [--height HEIGHT] [--large-text] [--no-guide]",
    "                              [--log-level \x7bDEBUG,INFO,WARNING,ERROR\x7d]",
    "                              [--log-file LOG_FILE] [-V]",
    "",
    "Calculadora de expresiones y ecuaciones cuadraticas",
    "",
    "options:",
    "  -h, --help            show this help message and exit",
    "  --no-voice            desactivar el feedback por voz",
    "  --speak-keys          leer en voz alta cada tecla pulsada",
    "  --width WIDTH         ancho de la ventana",
    "  --height HEIGHT       alto de la ventana",
    "  --large-text          fuente mas grande",
    "  --no-guide            ocultar la guia de teclas",
    "  --log-level \x7bDEBUG,INFO,WARNING,ERROR\x7d",
    "  --log-file LOG_FILE   guardar logs en un archivo",
    "  -V, --version         show program's version number and exit"]

namespace Stop

/-- The exit status. -/
def status : Stop → Nat
  | help | version => 0
  | usage _ => 2

/-- What is printed on the terminal. -/
def lines : Stop → List String
  | help => helpLines
  | version => [versionText]
  | usage _ => []

/-- What is reported as an error. -/
def message : Stop → String
  | help | version => ""
  | usage e => e.message

end Stop

end CommandLine

end TalkingCalculator
