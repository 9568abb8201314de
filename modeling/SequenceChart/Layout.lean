/-
SequenceChart/Layout.lean

The layout of a chart: its gaps, paddings and font sizes.

Everything that places a participant or sizes the canvas takes its constants
from here.  The constants of the drawing alone (stroke widths, arrow heads,
loop sizes) are in `Drawing`.
-/
import SequenceChart.Quantity

namespace SequenceChart

/-- The sizes that a chart is laid out with. -/
structure Layout where
  /-- Outer space around the whole chart. -/
  padding : Quantity := .int 10
  /-- Space between the padding and the first participant box. -/
  margin : Quantity := .int 15
  /-- Space between neighbouring participant boxes. -/
  horizontalGap : Quantity := .int 25
  /-- Height of an interaction row. -/
  verticalGap : Quantity := .int 50
  /-- Space between a participant label and each edge of its box. -/
  labelPadding : Quantity := .int 10
  participantFontSize : Quantity := .int 18
  messageFontSize : Quantity := .int 16
  titleFontSize : Quantity := .int 30
  deriving DecidableEq

instance : Inhabited Layout := ⟨{}⟩

/-- From the edge of the canvas to the first participant box. -/
def Layout.inset (layout : Layout) : Calc Quantity :=
  layout.padding.add layout.margin

/-- The padding on both sides of a label. -/
def Layout.labelMargins (layout : Layout) : Calc Quantity :=
  (Quantity.int 2).mul layout.labelPadding

/-- From the end of one label to the start of the next, less the label's own
width: two label paddings and the gap between the boxes. -/
def Layout.participantGap (layout : Layout) : Calc Quantity := do
  let margins ← layout.labelMargins
  margins.add layout.horizontalGap

end SequenceChart
