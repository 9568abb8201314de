/-
SequenceChart/Diagram.lean

Diagrams: charts with everything resolved and placed.

A diagram is built from classified lines in four steps: the issues are
reported, the participants and then the interactions are resolved, and the
canvas is sized.  A later step never changes what an earlier one placed.
-/
import SequenceChart.Canvas
import SequenceChart.Header
import SequenceChart.Interaction
import SequenceChart.Line.Classify
import SequenceChart.Measure.Estimate

namespace SequenceChart

/-- A chart that is laid out, ready to be drawn. -/
structure Diagram where
  participants : List Participant := []
  interactions : List Interaction := []
  canvas : Size := default
  /-- The height of the participant boxes; the rows start below them. -/
  boxHeight : Quantity := .int 0
  header : Header := {}
  /-- The reported lines, in document order. -/
  issues : List Line := []
  layout : Layout := {}
  deriving DecidableEq

namespace Diagram

variable {σ : Type}

/-! ### Building -/

/-- Report a line that is otherwise ignored. -/
def reportIssue (line : Line) : Run σ Unit :=
  Run.notify (.ignoredLine line.number (Text.trim line.text))

/-- Build the diagram of classified lines. -/
def build (measurer : Measurer σ) (layout : Layout) (lines : List Line) : Run σ Diagram := do
  -- whatever fails later, the ignored lines are reported
  (Line.issues lines).forM reportIssue
  let participants ← resolveParticipants measurer layout lines
  let interactions ← resolveInteractions participants lines
  let canvas ← canvasSize participants interactions.length layout
  Run.notify (.canvasSized canvas.width canvas.height)
  let height ← SequenceChart.boxHeight participants layout
  return {
    participants := participants
    interactions := interactions
    canvas := canvas
    boxHeight := height
    header := Header.collect lines
    issues := Line.issues lines
    layout := layout }

/-- Build the diagram of lines that are not classified yet. -/
def ofLines (measurer : Measurer σ) (layout : Layout) (texts : List String) : Run σ Diagram :=
  build measurer layout (Line.classifyAll texts)

/-- Build the diagram of a source text. -/
def ofText (measurer : Measurer σ) (layout : Layout) (source : String) : Run σ Diagram :=
  ofLines measurer layout (Text.splitLines source)

/-! ### Questions about a diagram -/

/-- The first participant of a name. -/
def participant? (d : Diagram) (name : String) : Option Participant :=
  d.participants.find? fun p => p.name = name

/-- The top of a row, measured from the top of the canvas. -/
def rowTop (d : Diagram) (row : Int) : Calc Quantity := do
  let inset ← d.layout.inset
  let start ← inset.add d.boxHeight
  let offset ← (Quantity.int row).mul d.layout.verticalGap
  start.add offset

/-- The middle of a row, where its arrow is drawn. -/
def arrowY (d : Diagram) (row : Int) : Calc Quantity := do
  let top ← d.rowTop row
  let half ← d.layout.verticalGap.half
  top.add half

/-- The width of a participant's box. -/
def boxWidth (d : Diagram) (p : Participant) : Calc Quantity := do
  let margins ← d.layout.labelMargins
  p.labelWidth.add margins

/-- The middle of a participant's box, where its lifeline is drawn. -/
def lifelineX (d : Diagram) (p : Participant) : Calc Quantity := do
  let width ← d.boxWidth p
  let half ← width.half
  p.x.add half

end Diagram

end SequenceChart
