/-
SequenceChart/Canvas.lean

The size of the canvas.

Both dimensions are closed formulas over the participants and the number of
interactions, summed from left to right:

    width  = 2 padding + 2 margin + label widths
               + (n - 1) horizontalGap + 2 n labelPadding
    height = 2 padding + 2 margin + rowHeight + interactions * verticalGap
-/
import SequenceChart.Participant

namespace SequenceChart

/-- The height of the participant boxes: the tallest label with its padding
above and below, or zero if there is none. -/
def boxHeight (participants : List Participant) (layout : Layout) : Calc Quantity :=
  match participants with
  | [] => .ok (.int 0)
  | first :: rest => do
    let margins ← layout.labelMargins
    (Quantity.maximum first.labelHeight (rest.map Participant.labelHeight)).add margins

/-- Padding and margin on both sides. -/
def frameSize (layout : Layout) : Calc Quantity := do
  let padding ← (Quantity.int 2).mul layout.padding
  let margin ← (Quantity.int 2).mul layout.margin
  padding.add margin

/-- The width of the canvas: the frame, the labels with their padding, and the gaps
between them. -/
def canvasWidth (participants : List Participant) (layout : Layout) : Calc Quantity := do
  let count := participants.length
  let frame ← frameSize layout
  let labels ← Quantity.sum (participants.map Participant.labelWidth)
  let width ← frame.add labels
  let gaps ← (Quantity.int (count - 1 : Nat)).mul layout.horizontalGap
  let width ← width.add gaps
  let margins ← (Quantity.int (count * 2 : Nat)).mul layout.labelPadding
  width.add margins

/-- The height of the canvas: the frame, the participant boxes, and a row for each
interaction. -/
def canvasHeight (participants : List Participant) (interactions : Nat) (layout : Layout) :
    Calc Quantity := do
  let frame ← frameSize layout
  let box ← boxHeight participants layout
  let height ← frame.add box
  let rows ← (Quantity.int interactions).mul layout.verticalGap
  height.add rows

/-- The size of the canvas. -/
def canvasSize (participants : List Participant) (interactions : Nat) (layout : Layout) :
    Calc Size := do
  let width ← canvasWidth participants layout
  let height ← canvasHeight participants interactions layout
  return { width := width, height := height }

end SequenceChart
