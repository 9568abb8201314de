/-
SequenceChart/Main.lean

The command line as a program.

It hands over what there is to read, saves and prints what the command leaves
behind, and ends with its code.
-/
import SequenceChart.Cli.Program

namespace SequenceChart.Cli

/-- The content of an input file; one that cannot be read counts as missing. -/
def contentOf (path : String) : IO (Except FileError ByteArray) := do
  try
    let content ← IO.FS.readBinFile path
    return .ok content
  catch _ => return .error .missing

/-- Whether a file can be opened for reading. -/
def canOpen (path : String) : IO Bool := do
  try
    let _ ← IO.FS.Handle.mk path .read
    return true
  catch _ => return false

/-- What a command sees of the files, as far as it asks for them. -/
def filesFor (command : Command) : IO Files := do
  let content ← match command.origin? with
    | some (.file path) => contentOf path
    | _ => pure (.error .missing)
  let font ← match command with
    | .render { font := some path, .. } => canOpen path
    | _ => pure false
  return { read := fun _ => content, canOpen := fun _ => font }

/-- Save what an outcome has to save, and complain if that fails. -/
def save (outcome : Outcome) : IO Outcome := do
  match outcome.save with
  | none => return outcome
  | some saving =>
    try
      IO.FS.writeFile saving.path saving.text
      return outcome.saved (Path.ofString saving.path)
    catch e =>
      IO.eprintln (toString e)
      return { outcome with ending := .exited 1 }

/-- Print an outcome, and return its exit code. -/
def finish (outcome : Outcome) : IO UInt32 := do
  IO.print outcome.stdout
  IO.eprint outcome.stderr
  IO.eprint (unlines outcome.ending.report)
  return outcome.ending.exitCode.toUInt32

/-- Carry out a command line. -/
def execute (arguments : List String) : IO UInt32 := do
  match readCommand arguments with
  | .error e => finish { ending := .usage e }
  | .ok command =>
    let stdin ← if command.origin? = some .stdin then (← IO.getStdin).readBinToEnd
      else pure ByteArray.empty
    let files ← filesFor command
    let outcome ← save (command.outcome (.standard files.canOpen) stdin files)
    finish outcome

end SequenceChart.Cli

/-- The program: the exit code is that of the command line. -/
def main (arguments : List String) : IO UInt32 :=
  SequenceChart.Cli.execute arguments
