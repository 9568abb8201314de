/-
SequenceChart/Measure/Estimate.lean

Estimating the size of a text without a font.

The width is the number of characters times the font size times the width of
an average character of a proportional font, which grows with the weight; the
height is a line box.
-/
import SequenceChart.Measure.Basic

namespace SequenceChart

/-- The weight of participant names. -/
def participantWeight : Int := 500
/-- The weight of messages, and of the byline. -/
def messageWeight : Int := 400
/-- The weight of the title. -/
def titleWeight : Int := 600

/-- The width of an average character, relative to the font size. -/
def characterRatio (weight : Int) : Float :=
  if 600 ≤ weight then 0.58 else if 500 ≤ weight then 0.55 else 0.52

/-- The height of a line box, relative to the font size. -/
def lineHeightRatio : Float := 1.2

/-- The estimated width of a text. -/
def estimateWidth (text : String) (fontSize : Quantity) (weight : Int) : Calc Quantity := do
  let ems ← (Quantity.int text.length).mul fontSize
  ems.mul (.float (characterRatio weight))

/-- The estimated height of a line of text. -/
def estimateHeight (fontSize : Quantity) : Calc Quantity :=
  fontSize.mul (.float lineHeightRatio)

/-- The estimated size of a text on one line. -/
def estimateSize (text : String) (fontSize : Quantity) (weight : Int) : Calc Size := do
  let width ← estimateWidth text fontSize weight
  let height ← estimateHeight fontSize
  return { width := width, height := height }

/-- The measurer that estimates, for texts of a given weight. -/
def Measurer.estimated {σ : Type} (weight : Int := participantWeight) : Measurer σ :=
  fun text fontSize => Run.ofCalc (estimateSize text fontSize weight)

end SequenceChart
