/-
SequenceChart/Fault.lean

What can stop a run.

Problems of a single line are no faults: such a line is reported and
ignored.  A diagram error concerns the chart as a whole and is shown to the
user; the other faults come from the arithmetic of the layout, from lines put
together by hand, and from fonts that fail in an unforeseen way.
-/
import SequenceChart.Quantity
import SequenceChart.Text.Blank
import SequenceChart.Text.Quoted

namespace SequenceChart

/-- What can be wrong with a chart, so that it cannot be drawn. -/
inductive DiagramError where
  /-- An interaction on line `number`, whose text is `text`, names a
  participant that is not among the resolved ones. -/
  | missingParticipant (number : Int) (name : String) (text : String)
  /-- A text could not be measured. -/
  | unmeasurable (text : String) (reason : String)
  deriving DecidableEq, Repr

/-- What is said of an error.  The line at fault is shown if it is not blank. -/
def DiagramError.message : DiagramError → String
  | .missingParticipant number name text =>
    let shown := Text.trim text
    "Line " ++ String.ofList (Number.integerText number) ++ ": participant " ++
      Text.quoted name ++ " was not resolved" ++
      (if shown = "" then "" else " (in " ++ Text.quoted shown ++ ")")
  | .unmeasurable text reason => "Could not measure " ++ Text.quoted text ++ ": " ++ reason

/-- Why a run has no result.  Only an error of the diagram is foreseen; everything else
is left to whoever runs the program. -/
inductive Fault where
  | diagram (e : DiagramError)
  | arithmetic (e : ArithmeticError)
  /-- An interaction line has no sender or no receiver. -/
  | unnamedEndpoint
  /-- A font failed in a way that is not its business to report. -/
  | brokenFont (reason : String)
  deriving DecidableEq, Repr

/-- What is said of a fault. -/
def Fault.message : Fault → String
  | .diagram e => e.message
  | .arithmetic e => e.message
  | .unnamedEndpoint => ""
  | .brokenFont reason => reason

end SequenceChart
