/-
SequenceChart/Cli/Arguments.lean

The arguments of the command line.

The first argument that is no option names the command.  A command has
options with a long and perhaps a short name; short ones may be written
together, and an option with a value takes the rest of its argument (after
`=` for a long one) or else the argument that follows, whatever it looks
like.  Of an option given twice the last one counts, options and other
arguments may be mixed, and `--` ends the options.
-/

namespace SequenceChart.Cli

/-! ### Options -/

/-- What an option sets. -/
inductive OptionKey where
  | output
  | builtIn
  | theme
  | font
  | transparent
  | verbose
  | help
  deriving DecidableEq, Repr

/-- An option that a command has. -/
structure OptionSpec where
  key : OptionKey
  long : String
  short : Option Char := none
  takesValue : Bool := false
  deriving DecidableEq, Repr

/-- The option that every command has. -/
def helpOption : OptionSpec := { key := .help, long := "--help" }

/-- The options of `render`. -/
def renderOptions : List OptionSpec :=
  [{ key := .output, long := "--output", short := some 'o', takesValue := true },
   { key := .builtIn, long := "--example", short := some 'e' },
   { key := .theme, long := "--theme", takesValue := true },
   { key := .font, long := "--font", takesValue := true },
   { key := .transparent, long := "--transparent" },
   { key := .verbose, long := "--verbose", short := some 'v' },
   helpOption]

/-- The options of `check`. -/
def checkOptions : List OptionSpec :=
  [{ key := .builtIn, long := "--example", short := some 'e' },
   { key := .verbose, long := "--verbose", short := some 'v' },
   helpOption]

/-- Why a command line cannot be carried out. -/
inductive UsageError where
  | missingCommand
  | unknownCommand (name : String)
  | unknownOption (name : String)
  | missingValue (name : String)
  | unexpectedValue (name : String)
  | unexpectedArgument (argument : String)
  | exampleWithFile
  | noSuchFile (path : String)
  deriving DecidableEq, Repr

/-- What is said of a command line that cannot be carried out. -/
def UsageError.message : UsageError → String
  | .missingCommand => "Missing command."
  | .unknownCommand name => "No such command '" ++ name ++ "'."
  | .unknownOption name => "No such option: " ++ name
  | .missingValue name => "Option '" ++ name ++ "' requires an argument."
  | .unexpectedValue name => "Option '" ++ name ++ "' does not take a value."
  | .unexpectedArgument argument => "Got unexpected extra argument (" ++ argument ++ ")"
  | .exampleWithFile => "--example cannot be combined with an input file"
  | .noSuchFile path => "No such file: " ++ path

/-! ### Reading one argument -/

/-- What an argument says: the options it sets, each with its value if it has
one, and possibly an option whose value is the next argument. -/
structure Reading where
  settings : List (OptionKey × Option String) := []
  pending : Option OptionKey := none

/-- Whether an argument is read as options. -/
def isOption (argument : String) : Bool :=
  match argument.toList with
  | '-' :: _ :: _ => true
  | _ => false

/-- Letters written together behind one dash. -/
def readCluster (specs : List OptionSpec) : List Char → Except UsageError Reading
  | [] => .ok {}
  | letter :: rest =>
    match specs.find? fun spec => spec.short = some letter with
    | none => .error (.unknownOption (String.ofList ['-', letter]))
    | some spec =>
      if spec.takesValue then
        -- the rest of the letters is the value
        if rest.isEmpty then .ok { pending := some spec.key }
        else .ok { settings := [(spec.key, some (String.ofList rest))] }
      else do
        let reading ← readCluster specs rest
        return { reading with settings := (spec.key, none) :: reading.settings }

/-- An option by its long name, with the value after `=` if there is one. -/
def readLong (spec : OptionSpec) (value : Option String) : Except UsageError Reading :=
  match spec.takesValue, value with
  | true, some v => .ok { settings := [(spec.key, some v)] }
  | true, none => .ok { pending := some spec.key }
  | false, some _ => .error (.unexpectedValue spec.long)
  | false, none => .ok { settings := [(spec.key, none)] }

/-- Read one argument as options: by a long name, or else as letters. -/
def readOption (specs : List OptionSpec) (argument : String) : Except UsageError Reading :=
  let cs := argument.toList
  let name := String.ofList (cs.takeWhile (· ≠ '='))
  let value := match cs.dropWhile (· ≠ '=') with
    | [] => none
    | _ :: v => some (String.ofList v)
  match specs.find? fun spec => spec.long = name with
  | some spec => readLong spec value
  | none =>
    match cs with
    | '-' :: '-' :: _ => .error (.unknownOption name)
    | '-' :: letters => readCluster specs letters
    | _ => .error (.unknownOption name)

/-! ### Reading all of them -/

/-- A command's arguments, sorted out. -/
structure Settings where
  options : List (OptionKey × Option String) := []
  operands : List String := []

namespace Settings

/-- Settings with more options in front. -/
def withOptions (options : List (OptionKey × Option String)) (s : Settings) : Settings :=
  { s with options := options ++ s.options }

/-- Settings with one more operand in front. -/
def withOperand (operand : String) (s : Settings) : Settings :=
  { s with operands := operand :: s.operands }

/-- Whether an option is given. -/
def has (s : Settings) (key : OptionKey) : Bool :=
  s.options.any fun o => o.1 = key

/-- The value of an option, the last one if there are several. -/
def value? (s : Settings) (key : OptionKey) : Option String :=
  (s.options.findRev? fun o => o.1 = key).bind Prod.snd

end Settings

/-- Sort out the arguments of a command. -/
def readArguments (specs : List OptionSpec) : List String → Except UsageError Settings
  | [] => .ok {}
  | [argument] =>
    if argument = "--" then .ok {}
    else if isOption argument then do
      let reading ← readOption specs argument
      match reading.pending with
      | some _ => .error (.missingValue argument)
      | none => return { options := reading.settings }
    else .ok { operands := [argument] }
  | argument :: next :: rest =>
    if argument = "--" then .ok { operands := next :: rest }
    else if isOption argument then do
      let reading ← readOption specs argument
      match reading.pending with
      -- the next argument is a value, even if it looks like an option
      | some key =>
        let later ← readArguments specs rest
        return later.withOptions (reading.settings ++ [(key, some next)])
      | none =>
        let later ← readArguments specs (next :: rest)
        return later.withOptions reading.settings
    else do
      let later ← readArguments specs (next :: rest)
      return later.withOperand argument

/-! ### Commands -/

/-- What `render` is asked for. -/
structure RenderRequest where
  input : Option String := none
  builtIn : Bool := false
  output : Option String := none
  theme : Option String := none
  font : Option String := none
  transparent : Bool := false
  verbose : Bool := false
  deriving DecidableEq, Repr

/-- What `check` is asked for. -/
structure CheckRequest where
  input : Option String := none
  builtIn : Bool := false
  verbose : Bool := false
  deriving DecidableEq, Repr

/-- What a command line asks for. -/
inductive Command where
  | render (request : RenderRequest)
  | check (request : CheckRequest)
  | help
  deriving DecidableEq, Repr

/-- The one operand that a command takes. -/
def inputOf? : List String → Except UsageError (Option String)
  | [] => .ok none
  | [input] => .ok (some input)
  | _ :: extra :: _ => .error (.unexpectedArgument extra)

/-- Read the arguments of `render`. -/
def readRender (arguments : List String) : Except UsageError Command := do
  let s ← readArguments renderOptions arguments
  if s.has .help then return .help
  let input ← inputOf? s.operands
  return .render {
    input := input
    builtIn := s.has .builtIn
    output := s.value? .output
    theme := s.value? .theme
    font := s.value? .font
    transparent := s.has .transparent
    verbose := s.has .verbose }

/-- Read the arguments of `check`. -/
def readCheck (arguments : List String) : Except UsageError Command := do
  let s ← readArguments checkOptions arguments
  if s.has .help then return .help
  let input ← inputOf? s.operands
  return .check { input := input, builtIn := s.has .builtIn, verbose := s.has .verbose }

/-- Read a command by its name, which comes first. -/
def readNamed : List String → Except UsageError Command
  | [] => .error .missingCommand
  | name :: arguments =>
    if name = "render" then readRender arguments
    else if name = "check" then readCheck arguments
    else .error (.unknownCommand name)

/-- What stands before the command's name: whether help is asked for, and the
rest. -/
def readLeading : List String → Except UsageError (Bool × List String)
  | [] => .ok (false, [])
  | argument :: rest =>
    if argument = "--" then .ok (false, rest)
    else if isOption argument then do
      let _ ← readOption [helpOption] argument
      let (_, rest) ← readLeading rest
      return (true, rest)
    else .ok (false, argument :: rest)

/-- The command of a command line.  Before its name only `--help` and `--` may
stand. -/
def readCommand (arguments : List String) : Except UsageError Command := do
  let (help, rest) ← readLeading arguments
  if help then return .help
  readNamed rest

end SequenceChart.Cli
