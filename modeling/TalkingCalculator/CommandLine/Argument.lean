import TalkingCalculator.Text.DecimalDigit
import TalkingCalculator.Text.Quoted

/-!
# Command line arguments

Options have names with one or two dashes. A long name may be cut short as long as one option alone begins so,
and a value may follow its name after an equals sign or as the next argument. A name with one dash is one letter,
and the letters of further such options may follow it. What else begins with a dash is an option that nobody
knows, unless it looks like a negative number or contains a space.
-/
namespace TalkingCalculator

namespace CommandLine

inductive Switch where
  | help
  | noVoice
  | speakKeys
  | width
  | height
  | largeText
  | noGuide
  | logLevel
  | logFile
  | version
deriving DecidableEq, Repr

namespace Switch

def all : List Switch :=
  [help, noVoice, speakKeys, width, height, largeText, noGuide, logLevel, logFile, version]

def names : Switch → List String
  | help => ["-h", "--help"]
  | noVoice => ["--no-voice"]
  | speakKeys => ["--speak-keys"]
  | width => ["--width"]
  | height => ["--height"]
  | largeText => ["--large-text"]
  | noGuide => ["--no-guide"]
  | logLevel => ["--log-level"]
  | logFile => ["--log-file"]
  | version => ["-V", "--version"]

def takesValue : Switch → Bool
  | width | height | logLevel | logFile => true
  | help | noVoice | speakKeys | largeText | noGuide | version => false

/-- Every name with its option. -/
def named : List (List Char × Switch) :=
  all.flatMap fun o => o.names.map fun n => (n.toList, o)

def ofName? (name : List Char) : Option Switch :=
  named.lookup name

end Switch

/-- What an argument is taken for. -/
inductive Argument where
  | plain
  | unknown
  /-- `short` tells that the name has a single dash, and `attached` is a text written right after the name, with
  an equals sign between them or without. -/
  | option (o : Switch) (short : Bool) (attached : Option (List Char))
deriving DecidableEq, Repr

namespace Argument

/-- The parts before and after the first equals sign. -/
def splitEquals (cs : List Char) : List Char × Option (List Char) :=
  let name := cs.takeWhile (· ≠ '=')
  match cs.drop name.length with
  | [] => (name, none)
  | _ :: text => (name, some text)

/-- Digits alone, or digits with a point before the last of them, after a minus. -/
def looksNegative (cs : List Char) : Bool :=
  let cs := if cs.getLast? = some '\n' then cs.dropLast else cs
  let isDigit (c : Char) := (Text.digitValue? c).isSome
  match cs with
  | '-' :: cs =>
    match cs.dropWhile isDigit with
    | [] => !cs.isEmpty
    | '.' :: fraction => !fraction.isEmpty && fraction.all isDigit
    | _ => false
  | _ => false

/-- The options that an argument with a dash may mean, when it is not the whole name of one. -/
def candidates (cs : List Char) : List (List Char × Argument) :=
  if cs.take 2 = ['-', '-'] then
    let (name, attached) := splitEquals cs
    (Switch.named.filter fun (n, _) => name.isPrefixOf n).map fun (n, o) => (n, option o false attached)
  else
    Switch.named.filterMap fun (n, o) =>
      if n = cs.take 2 then some (n, option o true (some (cs.drop 2)))
      else if cs.isPrefixOf n then some (n, option o false none)
      else none

/-- What an argument means, or the names between which it leaves the choice. -/
def classify (arg : String) : Except (List String) Argument :=
  let cs := arg.toList
  let isShort (name : List Char) := name.take 2 ≠ ['-', '-']
  if cs.head? ≠ some '-' then .ok plain
  else if let some o := Switch.ofName? cs then .ok (option o (isShort cs) none)
  else if cs.length = 1 then .ok plain
  else
    let (name, attached) := splitEquals cs
    match attached, Switch.ofName? name with
    | some text, some o => .ok (option o (isShort name) (some text))
    | _, _ =>
      match candidates cs with
      | [(_, meaning)] => .ok meaning
      | [] => .ok (if looksNegative cs || cs.contains ' ' then plain else unknown)
      | several => .error (several.map fun (n, _) => String.ofList n)

end Argument

end CommandLine

end TalkingCalculator
