import TalkingCalculator.Program

/-!
# The command

Keys are the bytes of the standard input, whose end is the escape key. There is no speech engine and no window
to draw on, so what the user gets is the terminal and, on demand, the file of the journal.
-/
open TalkingCalculator

partial def readKeys (input : IO.FS.Stream) (keys : Array Wait) : IO (List Wait) := do
  let bytes ← input.read 4096
  if bytes.isEmpty then return keys.toList
  else readKeys input (keys ++ (bytes.toList.map fun b => Wait.code b.toNat).toArray)

def main (args : List String) : IO UInt32 := do
  let waits ← readKeys (← IO.getStdin) #[]
  let result := Program.run .closed args (.error "no speech engine") ⟨false, []⟩ 0.0 waits
  for line in result.journal.terminal do
    IO.println line
  if let (some path, some lines) := (Program.journalPath? args, result.journal.file) then
    IO.FS.writeFile path (String.join (lines.map (· ++ "\n")))
  match result with
  | .stopped stop _ =>
    if stop.status ≠ 0 then
      IO.eprintln ("calculadora-cientifica: error: " ++ stop.message)
  | .unopened _ => IO.eprintln ("calculadora-cientifica: error: " ++ result.error?.getD "")
  | .finished _ _ => pure ()
  return result.status.toUInt32
