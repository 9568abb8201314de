/-
SequenceChart/Cli/FileTree.lean

The files, as far as the command line reads and writes them.

A tree lists what there is by its place; a directory is there as soon as
something below it is listed, and the directories down to the working
directory always are.  A path is followed name by name, and each step has to
start from a directory.  Reading is for files alone.  Writing takes two steps:
a file is opened, which needs a directory that is there and loses what the file
had, and then it is filled.
-/
import SequenceChart.Cli.Path

namespace SequenceChart.Cli

/-! ### Trees -/

/-- A place in the tree, by the names that lead to it from the root. -/
abbrev Place := List String

/-- What is at a place. -/
inductive Node where
  | file (content : ByteArray)
  | directory
  /-- A device, which swallows what is written to it. -/
  | device

/-- The files that there are. -/
structure FileTree where
  nodes : List (Place × Node) := []
  /-- The working directory. -/
  here : Place := []

/-- Why a path leads to no file. -/
inductive FileError where
  | missing
  | notADirectory
  | isADirectory
  | isADevice
  | nameTooLong
  deriving DecidableEq, Repr

/-- What is said of a path that leads to no file. -/
def FileError.message : FileError → String
  | .missing => "No such file or directory"
  | .notADirectory => "Not a directory"
  | .isADirectory => "Is a directory"
  | .isADevice => "Is a device"
  | .nameTooLong => "File name too long"

/-- The most bytes that a name may have. -/
def nameLimit : Nat := 255

/-- The most bytes that a path may have. -/
def pathLimit : Nat := 4095

namespace FileTree

/-- Whether something is listed at a place or below it, or the working
directory is. -/
def reaches (t : FileTree) (place : Place) : Bool :=
  place.isPrefixOf t.here || t.nodes.any fun entry => place.isPrefixOf entry.1

/-- What is at a place. -/
def node? (t : FileTree) (place : Place) : Option Node :=
  match t.nodes.find? fun entry => entry.1 = place with
  | some entry => some entry.2
  | none => if t.reaches place then some .directory else none

/-! ### Following paths -/

/-- Follow names from a place; nothing needs to be where the last one leads. -/
def follow (t : FileTree) (place : Place) : List String → Except FileError Place
  | [] => .ok place
  | name :: rest =>
    match t.node? place with
    | none => .error .missing
    | some .directory =>
      if name = "." then t.follow place rest
      -- the root is its own parent
      else if name = ".." then t.follow place.dropLast rest
      else if nameLimit < name.utf8ByteSize then .error .nameTooLong
      else t.follow (place ++ [name]) rest
    | some _ => .error .notADirectory

/-- The place that a path leads to. -/
def resolve (t : FileTree) (path : Path) : Except FileError Place :=
  if pathLimit < path.text.utf8ByteSize then .error .nameTooLong
  else t.follow (if path.root = "" then t.here else []) path.names

/-! ### Reading and writing -/

/-- The content of a file. -/
def read (t : FileTree) (path : Path) : Except FileError ByteArray := do
  match t.node? (← t.resolve path) with
  | some (.file content) => return content
  | some .directory => throw .isADirectory
  | some .device => throw .isADevice
  | none => throw .missing

/-- Whether there is anything to open. -/
def canOpen (t : FileTree) (path : Path) : Bool :=
  match t.resolve path with
  | .ok place => (t.node? place).isSome
  | .error _ => false

/-- Replace what is listed at a place, or list a new file at the end. -/
def put (t : FileTree) (place : Place) (content : ByteArray) : FileTree :=
  if t.nodes.any fun entry => entry.1 = place then
    { t with nodes := t.nodes.map fun entry =>
        if entry.1 = place then (place, .file content) else entry }
  else { t with nodes := t.nodes ++ [(place, .file content)] }

/-- The place of a file that is opened for writing.  A path that resolves has a
directory above its place, so a file can be added there. -/
def target (t : FileTree) (path : Path) : Except FileError Place := do
  let place ← t.resolve path
  match t.node? place with
  | some .directory => throw .isADirectory
  | _ => return place

/-- Fill a file that is open.  A device swallows what it gets. -/
def fill (t : FileTree) (place : Place) (content : ByteArray) : FileTree :=
  match t.node? place with
  | some .device => t
  | _ => t.put place content

end FileTree

end SequenceChart.Cli
