/-
SequenceChart/Cli/Program.lean

What the commands do.

`render` draws a source and prints the SVG text or writes it to a file;
`check` lists the lines that were ignored and counts what is left.  Both are
functions of the platform, the arguments, the standard input and the files.
The notices of a run go to the standard error: warnings, and all of them if
the command is verbose.  What a command prints itself, on either stream, is
echoed by the platform; notices and saved files are written as they are.

A command line that cannot be carried out ends with code 2, a chart that
cannot be drawn with code 1, and so does `check` when it has ignored a line.
A picture is saved last of all, straight into its file, so a file that could be
opened but not be filled to the end has lost what it had.
-/
import SequenceChart.Chart
import SequenceChart.Cli.Platform

namespace SequenceChart.Cli

/-! ### Outcomes -/

/-- What ends a command that no message was foreseen for. -/
inductive Crash where
  /-- The input file is not in UTF-8. -/
  | undecodable
  /-- The input or the output file is out of reach. -/
  | file (e : FileError)
  /-- The picture has a character that cannot be encoded. -/
  | unencodable
  /-- The output file was opened, but did not take all of the picture. -/
  | cutOff
  | fault (f : Fault)
  deriving DecidableEq

/-- What is said of a crash. -/
def Crash.message : Crash → String
  | .undecodable => "the input is not in UTF-8"
  | .unencodable => "the output cannot be encoded"
  | .cutOff => "the output could not be written to the end"
  | .file e => e.message
  | .fault f => f.message

/-- How a command line ends. -/
inductive Ending where
  /-- It cannot be carried out. -/
  | usage (e : UsageError)
  /-- The command itself ends with a code. -/
  | exited (code : Nat)
  | crashed (crash : Crash)
  deriving DecidableEq

/-- The exit code of an ending. -/
def Ending.exitCode : Ending → Nat
  | usage _ => 2
  | exited code => code
  | crashed _ => 1

/-- What is left to say about an ending that the command did not choose. -/
def Ending.report : Ending → List String
  | usage e => ["Error: " ++ e.message]
  | exited _ => []
  | crashed crash => ["Error: " ++ crash.message]

/-- A text that is to be saved under a path. -/
structure Saving where
  path : String
  text : String
  /-- The characters that cannot be encoded. -/
  stray : List Char := []
  deriving DecidableEq

/-- The text in UTF-8, if it can be encoded. -/
def Saving.content? (saving : Saving) : Option ByteArray :=
  if saving.text.toList.any saving.stray.contains then none else some saving.text.toUTF8

/-- What a command leaves behind, the files aside. -/
structure Outcome where
  ending : Ending
  stdout : String := ""
  notices : List Notice := []
  /-- The message of a chart that cannot be drawn, as it is printed. -/
  complaint : Option String := none
  save : Option Saving := none
  verbose : Bool := false
  deriving DecidableEq

/-- Whether a notice is shown. -/
def shows (verbose : Bool) (notice : Notice) : Bool :=
  (if verbose then Severity.debug.rank else Severity.warning.rank) ≤ notice.severity.rank

/-- The lines of the standard error: the notices, then the complaint. -/
def Outcome.stderrLines (outcome : Outcome) : List String :=
  (outcome.notices.filter (shows outcome.verbose)).map Notice.logLine ++
    outcome.complaint.toList

/-- Lines as a text, each with its newline. -/
def unlines (lines : List String) : String :=
  String.join (lines.map (· ++ "\n"))

/-- Lines as a platform prints them. -/
def Platform.printed (platform : Platform) (lines : List String) : String :=
  unlines (lines.map platform.echo)

/-- The text of the standard error. -/
def Outcome.stderr (outcome : Outcome) : String :=
  unlines outcome.stderrLines

/-! ### Commands on a source text -/

/-- The measurer for the value of `--font`: an empty one is none. -/
def measurerFor (fonts : Fonts) (font : Option String) :
    Measurer (FontCache fonts.Font fonts.State) :=
  match font.bind nonempty? with
  | some path => .ofFace fonts.library (.file path)
  | none => .estimated

/-- The outcome of a run that stopped.  Only an error of the diagram was
foreseen. -/
def failed (platform : Platform) (verbose : Bool) (notices : List Notice) : Fault → Outcome
  | .diagram e =>
    { ending := .exited 1, notices := notices
      complaint := some (platform.echo ("error: " ++ e.message)), verbose := verbose }
  | fault => { ending := .crashed (.fault fault), notices := notices, verbose := verbose }

/-- Draw a source, and have the picture printed or saved. -/
def renderSource (platform : Platform) (request : RenderRequest) (source : Decoded) : Outcome :=
  let appearance : Appearance :=
    { theme := request.theme, transparent := some request.transparent }
  let trace :=
    renderChart (measurerFor platform.fonts request.font) {} appearance source.text
      { library := platform.fonts.state }
  match trace.result with
  | .error fault => failed platform request.verbose trace.notices fault
  | .ok svg =>
    match request.output with
    | none =>
      { ending := .exited 0, stdout := platform.printed [svg], notices := trace.notices
        verbose := request.verbose }
    | some path =>
      { ending := .exited 0, notices := trace.notices
        save := some { path := path, text := svg, stray := source.stray }
        verbose := request.verbose }

/-- An ignored line, as `check` lists it. -/
def issueLine (line : Line) : String :=
  "line " ++ String.ofList (Number.integerText line.number) ++ ": " ++ Text.trim line.text

/-- The last line of `check`. -/
def summaryLine (d : Diagram) : String :=
  let count (n : Nat) : String := String.ofList (Number.integerText n)
  count d.participants.length ++ " participants, " ++ count d.interactions.length ++
    " interactions, " ++ count d.issues.length ++ " issues"

/-- Build the chart of a source, and list the lines that it ignores. -/
def checkSource (platform : Platform) (request : CheckRequest) (source : Decoded) : Outcome :=
  let trace := Diagram.ofText (σ := Unit) .estimated {} source.text ()
  match trace.result with
  | .error fault => failed platform request.verbose trace.notices fault
  | .ok d =>
    { ending := .exited (if d.issues.isEmpty then 0 else 1)
      stdout := platform.printed (d.issues.map issueLine ++ [summaryLine d])
      notices := trace.notices
      verbose := request.verbose }

/-! ### Where the source comes from -/

/-- The built-in example. -/
def exampleSource : String :=
  unlines
    [":theme default",
     ":title Example Sequence Diagram",
     ":author Mr. Sequence Diagram",
     ":date",
     "",
     "# diagram",
     "Client -> Server: Request",
     "Server -> Server: Parses request",
     "Server ->> Service: Query",
     "Service -->> Server: Data",
     "Server --> Client: Response",
     "Left -> Right"]

/-- Where a source is read from. -/
inductive Origin where
  | builtIn
  | stdin
  | file (path : String)
  deriving DecidableEq, Repr

/-- Where the source of a command comes from; a dash stands for the standard
input. -/
def originOf (builtIn : Bool) (input : Option String) : Except UsageError Origin :=
  let path := input.filter (· ≠ "-")
  match builtIn, path with
  | true, none => .ok .builtIn
  | true, some _ => .error .exampleWithFile
  | false, none => .ok .stdin
  | false, some path => .ok (.file path)

/-- Where the source of a command comes from; `--help` needs none. -/
def Command.origin? : Command → Option Origin
  | .help => none
  | .render request => (originOf request.builtIn request.input).toOption
  | .check request => (originOf request.builtIn request.input).toOption

/-- What a command sees of the files, by the paths on the command line. -/
structure Files where
  /-- The content of an input file. -/
  read : String → Except FileError ByteArray
  /-- Whether a font could be opened. -/
  canOpen : String → Bool

/-- What a command sees of a tree of files. -/
def FileTree.view (t : FileTree) : Files where
  read path := t.read (.ofString path)
  canOpen path := t.canOpen (.exact path)

/-- The text of a file in UTF-8, with one kind of newline. -/
def decode (content : ByteArray) : Except Ending String :=
  match String.fromUTF8? content with
  | none => .error (.crashed .undecodable)
  | some text => .ok (Text.unifyNewlines text)

/-- The text of the standard input, with one kind of newline. -/
def Decoder.read (decoder : Decoder) (stdin : ByteArray) : Except Ending Decoded :=
  match decoder.decode? stdin with
  | none => .error (.crashed .undecodable)
  | some source => .ok { source with text := Text.unifyNewlines source.text }

/-- The ending for an input that is out of reach.  A name that is too long is
not even looked for. -/
def unread (path : String) : FileError → Ending
  | .nameTooLong => .crashed (.file .nameTooLong)
  | _ => .usage (.noSuchFile path)

/-- The source text, or how the command ends for lack of one.  A file is always
decoded strictly. -/
def readSource (decoder : Decoder) (stdin : ByteArray) (files : Files) :
    Origin → Except Ending Decoded
  | .builtIn => .ok { text := exampleSource }
  | .stdin => decoder.read stdin
  | .file path =>
    match files.read path with
    | .error e => .error (unread path e)
    | .ok content => (decode content).map fun text => { text := text }

/-! ### The program -/

/-- What `--help` prints. -/
def helpText : String :=
  unlines
    ["Usage: [--help] COMMAND [OPTIONS] [INPUT]",
     "",
     "Render plain-text sequence diagrams to SVG.",
     "",
     "Commands:",
     "  render  Render a diagram to SVG.",
     "  check   Parse a diagram and report lines that were ignored."]

/-- Apply a command to the source it reads. -/
def onSource (decoder : Decoder) (stdin : ByteArray) (files : Files) (builtIn : Bool)
    (input : Option String) (verbose : Bool) (apply : Decoded → Outcome) : Outcome :=
  match originOf builtIn input with
  | .error e => { ending := .usage e }
  | .ok origin =>
    match readSource decoder stdin files origin with
    | .error ending => { ending := ending, verbose := verbose }
    | .ok source => apply source

/-- Carry out a command, up to saving. -/
def Command.outcome (platform : Platform) (stdin : ByteArray) (files : Files) : Command → Outcome
  | .help => { ending := .exited 0, stdout := helpText }
  | .render request =>
    onSource platform.stdin stdin files request.builtIn request.input request.verbose
      (renderSource platform request)
  | .check request =>
    onSource platform.stdin stdin files request.builtIn request.input request.verbose
      (checkSource platform request)

/-- Carry out a command line, up to saving. -/
def outcome (platform : Platform) (arguments : List String) (stdin : ByteArray) (files : Files) :
    Outcome :=
  match platform.readCommand arguments with
  | .error e => { ending := .usage e }
  | .ok command => command.outcome platform stdin files

/-- The outcome once its text is saved. -/
def Outcome.saved (outcome : Outcome) (target : Path) : Outcome :=
  { outcome with notices := outcome.notices ++ [.chartWritten target.text] }

/-- The outcome if its text cannot be saved. -/
def Outcome.crashed (outcome : Outcome) (crash : Crash) : Outcome :=
  { outcome with ending := .crashed crash, save := none }

/-- Save what an outcome has to save.  An opened file is empty until it is
filled, and a text that cannot be encoded leaves it so. -/
def Outcome.saveIn (platform : Platform) (outcome : Outcome) (t : FileTree) :
    Outcome × FileTree :=
  match outcome.save with
  | none => (outcome, t)
  | some saving =>
    let path := Path.ofString saving.path
    match t.target path with
    | .error e => (outcome.crashed (.file e), t)
    | .ok place =>
      -- the file is open now, and what it had is lost
      match saving.content? with
      | none => (outcome.crashed .unencodable, t.fill place ByteArray.empty)
      | some content =>
        match platform.cutOff? place content with
        | some size => (outcome.crashed .cutOff, t.fill place (content.extract 0 size))
        | none => (outcome.saved path, t.fill place content)

/-- Carry out a command line on a platform and a tree of files. -/
def runWith (platform : Platform) (arguments : List String) (stdin : ByteArray) (t : FileTree) :
    Outcome × FileTree :=
  (outcome platform arguments stdin t.view).saveIn platform t

/-- Carry out a command line on the standard platform. -/
def run (arguments : List String) (stdin : ByteArray) (t : FileTree) : Outcome × FileTree :=
  runWith (.standard t.view.canOpen) arguments stdin t

end SequenceChart.Cli
