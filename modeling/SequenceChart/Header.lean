/-
SequenceChart/Header.lean

The header of a chart, gathered from its directives.

Each of the four fields is set by the last directive of its kind.  An empty
value counts too: it clears the field.
-/
import SequenceChart.Line

namespace SequenceChart

/-- The fields of a header; one that is not set is absent. -/
structure Header where
  title : Option String := none
  author : Option String := none
  date : Option String := none
  theme : Option String := none
  deriving DecidableEq, Repr

instance : Inhabited Header := ⟨{}⟩

/-- A text unless it is empty. -/
def nonempty? (s : String) : Option String :=
  if s = "" then none else some s

namespace Header

/-- Apply a directive. -/
def apply (header : Header) (d : Directive) : Header :=
  match d.kind with
  | .title => { header with title := nonempty? d.value }
  | .author => { header with author := nonempty? d.value }
  | .date => { header with date := nonempty? d.value }
  | .theme => { header with theme := nonempty? d.value }
  | .unknown => header

/-- The directive of a line, if it is a directive line. -/
def directiveOf? (line : Line) : Option Directive :=
  if line.kind = .directive then line.directive else none

/-- The header that the directives of some lines make up. -/
def collect (lines : List Line) : Header :=
  (lines.filterMap directiveOf?).foldl apply {}

end Header

end SequenceChart
