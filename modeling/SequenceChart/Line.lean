/-
SequenceChart/Line.lean

Classified lines, the input of every pass over a chart.

A line is tagged by its kind.  The fields that only some kinds use are
optional for all of them, since lines may also be put together by hand: the
passes look at the kind first, and a field that does not go with the kind is
never read.
-/

namespace SequenceChart

/-! ### Directives -/

/-- What a directive such as `:title Example` sets. -/
inductive Directive.Kind where
  | theme
  | title
  | author
  | date
  /-- A directive that sets nothing. -/
  | unknown
  deriving DecidableEq, Repr

/-- What a directive line says. -/
structure Directive where
  kind : Directive.Kind
  /-- The trimmed text after the keyword; it may be empty. -/
  value : String := ""
  /-- The keyword as written, with its colon. -/
  keyword : String := ""
  deriving DecidableEq, Repr

/-! ### Lines -/

/-- What a line is. -/
inductive Line.Kind where
  | blank
  | comment
  | directive
  /-- An interaction without a message. -/
  | interaction
  | interactionWithMessage
  | invalid
  deriving DecidableEq, Repr

/-- A line of a source, classified. -/
structure Line where
  number : Int
  /-- The line as it was read, not trimmed. -/
  text : String
  kind : Line.Kind
  sender : Option String := none
  receiver : Option String := none
  message : Option String := none
  directive : Option Directive := none
  deriving DecidableEq, Repr

namespace Line

/-- Whether the line takes part in the passes over participants and
interactions. -/
def isInteraction (line : Line) : Bool :=
  line.kind = .interaction || line.kind = .interactionWithMessage

/-- Whether the line is reported and otherwise ignored: it is invalid, or a
directive that sets nothing. -/
def isIssue (line : Line) : Bool :=
  line.kind = .invalid ||
    (line.kind = .directive && line.directive.any fun d => d.kind = .unknown)

/-- The interaction lines, in document order. -/
def interactions (lines : List Line) : List Line :=
  lines.filter isInteraction

/-- The reported lines, in document order. -/
def issues (lines : List Line) : List Line :=
  lines.filter isIssue

end Line

end SequenceChart
