/-
SequenceChart/Chart.lean

From a source to its SVG text.
-/
import SequenceChart.Drawing

namespace SequenceChart

variable {σ : Type}

/-- Draw a built diagram as an appearance asks for. -/
def Diagram.render (d : Diagram) (appearance : Appearance) : Run σ String := do
  let palette ← Palette.resolve appearance d.header
  let svg ← d.draw palette ((appearance.font.bind nonempty?).getD "Inter")
    (appearance.transparent.getD false)
  return svg

/-- Render a source text. -/
def renderChart (measurer : Measurer σ) (layout : Layout) (appearance : Appearance)
    (source : String) : Run σ String := do
  let d ← Diagram.ofText measurer layout source
  d.render appearance

/-- Render lines that are not classified yet. -/
def renderLines (measurer : Measurer σ) (layout : Layout) (appearance : Appearance)
    (texts : List String) : Run σ String := do
  let d ← Diagram.ofLines measurer layout texts
  d.render appearance

end SequenceChart
