/-
SequenceChart/Notice.lean

Notices, the log of a run.

A notice is a piece of data; its severity, the component that gives it and
its wording are functions of it.
-/
import SequenceChart.Quantity
import SequenceChart.Text.Quoted

namespace SequenceChart

/-- How serious a notice is. -/
inductive Severity where
  | debug
  | info
  | warning
  deriving DecidableEq, Repr

namespace Severity

/-- The rank of a severity, by which notices are shown or held back. -/
def rank : Severity → Nat
  | debug => 10
  | info => 20
  | warning => 30

/-- The name of a severity in the log. -/
def name : Severity → String
  | debug => "DEBUG"
  | info => "INFO"
  | warning => "WARNING"

end Severity

/-- What a run lets one know on its way. -/
inductive Notice where
  /-- A line is reported and otherwise ignored; its text is trimmed. -/
  | ignoredLine (number : Int) (text : String)
  | participantsResolved (participants interactions : Nat)
  | interactionsResolved (interactions : Nat)
  | canvasSized (width height : Quantity)
  | unknownTheme (theme : String)
  | fontLoaded (face : String) (pixels : Int)
  | chartWritten (path : String)
  deriving DecidableEq

namespace Notice

/-- The severity of a notice. -/
def severity : Notice → Severity
  | ignoredLine .. | unknownTheme .. => .warning
  | chartWritten .. => .info
  | participantsResolved .. | interactionsResolved .. | canvasSized .. | fontLoaded .. => .debug

/-- The component that gives the notice. -/
def component : Notice → String
  | ignoredLine .. | canvasSized .. => "pretty_seq.diagram"
  | participantsResolved .. => "pretty_seq.participants"
  | interactionsResolved .. => "pretty_seq.interactions"
  | unknownTheme .. => "pretty_seq.theme"
  | fontLoaded .. => "pretty_seq.fonts"
  | chartWritten .. => "pretty_seq.cli"

/-- A number, as messages have it. -/
private def counted (n : Int) : String :=
  String.ofList (Number.integerText n)

/-- The wording of a notice. -/
def message : Notice → String
  | ignoredLine number text => "Ignoring line " ++ counted number ++ ": " ++ Text.quoted text
  | participantsResolved participants interactions =>
    "Resolved " ++ counted participants ++ " participants over " ++ counted interactions ++
      " interactions"
  | interactionsResolved interactions => "Resolved " ++ counted interactions ++ " interactions"
  | canvasSized width height => "Canvas size " ++ width.text ++ "x" ++ height.text
  | unknownTheme theme => "Unknown theme " ++ Text.quoted theme ++ ", using defaults"
  | fontLoaded face pixels => "Loaded font " ++ face ++ " at " ++ counted pixels ++ "px"
  | chartWritten path => "Wrote " ++ path

/-- The notice as a line of the log. -/
def logLine (notice : Notice) : String :=
  notice.severity.name ++ " " ++ notice.component ++ ": " ++ notice.message

end Notice

end SequenceChart
