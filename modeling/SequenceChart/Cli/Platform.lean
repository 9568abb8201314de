/-
SequenceChart/Cli/Platform.lean

What the command line runs on.

Some of what a run does is not decided by the commands: how the arguments are
sorted out, what of a text is printed where the output is no terminal, how the
standard input is decoded, which fonts there are, and whether a disk takes what
is written to it.  A platform has these five things, and a run is a function of
it.  `Platform.standard` is an ordinary one.
-/
import SequenceChart.Cli.Arguments
import SequenceChart.Cli.Decoder
import SequenceChart.Cli.FileTree
import SequenceChart.Measure.Font
import SequenceChart.Text.Terminal

namespace SequenceChart.Cli

/-! ### Fonts -/

/-- The fonts that a command may measure with: their library, and the state in
which the command finds it. -/
structure Fonts where
  Font : Type
  State : Type
  library : FontLibrary Font State
  state : State

/-- No font format is built in, so no font is ever loaded: what cannot be opened
is named so, and the format of anything else is unknown. -/
def noFonts (canOpen : String → Bool) : Fonts where
  Font := Empty
  State := Unit
  library :=
    { load := fun face _ library =>
        match face with
        | .bundled => (.error "unknown file format", library)
        | .file path =>
          (.error (if canOpen path then "unknown file format" else "cannot open resource"), library)
      extent := fun font _ => nomatch font
      metrics := fun font => nomatch font }
  state := ()

/-! ### Platforms -/

/-- What a run depends on and does not decide itself. -/
structure Platform where
  /-- Sorts out the arguments of a command line. -/
  readCommand : List String → Except UsageError Command
  /-- What of a text is printed, on a stream that is no terminal. -/
  echo : String → String
  /-- Reads the standard input. -/
  stdin : Decoder
  /-- What labels can be measured with. -/
  fonts : Fonts
  /-- Where filling an open file with some bytes fails, how many of them it gets. -/
  cutOff? : Place → ByteArray → Option Nat

/-- Control sequences are not printed, a standard input that is no UTF-8 is
refused, there is no font, and no disk fails. -/
def Platform.standard (canOpen : String → Bool) : Platform where
  readCommand := Cli.readCommand
  echo := Text.plain
  stdin := .strict
  fonts := noFonts canOpen
  cutOff? _ _ := none

/-- Whether all of a text is printed but its control sequences. -/
def Platform.Strips (platform : Platform) : Prop :=
  ∀ text, platform.echo text = Text.plain text

theorem Platform.strips_standard (canOpen : String → Bool) : (standard canOpen).Strips :=
  fun _ => rfl

end SequenceChart.Cli
