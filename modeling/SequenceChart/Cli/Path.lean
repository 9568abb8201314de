/-
SequenceChart/Cli/Path.lean

Paths as they stand on the command line.

A path is cut into names at its slashes.  Two dots stay what they are, since
where they lead depends on the files.  A tidied path has lost the names that
lead nowhere, the empty ones and the single dots; an exact one keeps its dots,
and a slash at its end counts as one more.
-/

namespace SequenceChart.Cli

/-- A path, taken apart. -/
structure Path where
  /-- The slashes that make the path absolute; a relative one has none. -/
  root : String := ""
  names : List String := []
  deriving DecidableEq, Repr

namespace Path

/-- The pieces of a text between slashes. -/
def pieces : List Char → List (List Char)
  | [] => [[]]
  | '/' :: rest => [] :: pieces rest
  | c :: rest =>
    match pieces rest with
    | [] => [[c]]
    | piece :: others => (c :: piece) :: others

/-- Two leading slashes are kept, any other number of them is one. -/
def rootOf (s : List Char) : String :=
  match (s.takeWhile (· = '/')).length with
  | 0 => ""
  | 2 => "//"
  | _ => "/"

/-- The names of a path, the dots included. -/
def exactNames (s : List Char) : List String :=
  let names := ((pieces s).map String.ofList).filter (· ≠ "")
  if s.getLast? = some '/' then names ++ ["."] else names

/-- A path as it is written. -/
def exact (s : String) : Path :=
  { root := rootOf s.toList, names := exactNames s.toList }

/-- A path without the names that lead nowhere. -/
def ofString (s : String) : Path :=
  { root := rootOf s.toList, names := (exactNames s.toList).filter (· ≠ ".") }

/-- The text of a path; one without root and names is a single dot. -/
def text (path : Path) : String :=
  let joined := path.root ++ String.intercalate "/" path.names
  if joined = "" then "." else joined

end Path

end SequenceChart.Cli
