/-
SequenceChart/Proofs/Rendering.lean

What a drawing depends on.

A diagram keeps things that are for the reader of the source and not for the
viewer of the chart: the numbers of the lines, the issues, and the theme, which
the palette has taken over by then.  `Diagram.visible` leaves them out.  A
drawing shows nothing else than what is visible (`Diagram.draw_congr`), and a
rendering calculates it from the diagram alone, whatever was measured before
(`renderLines_result`).
-/
import SequenceChart.Chart
import SequenceChart.Proofs.Run

namespace SequenceChart

variable {σ : Type}

/-! ### What is visible -/

/-- An interaction without the number of its line. -/
def Interaction.unnumbered (i : Interaction) : Interaction :=
  { i with lineNumber := 0 }

/-- A diagram without line numbers, issues and theme. -/
def Diagram.visible (d : Diagram) : Diagram :=
  { d with
    interactions := d.interactions.map Interaction.unnumbered
    header := { d.header with theme := none }
    issues := [] }

namespace Drawing

theorem contentWidth_visible (d : Diagram) : contentWidth d.visible = contentWidth d := by
  rw [contentWidth, contentWidth, Diagram.visible, List.foldlM_map]
  rfl

theorem mapM_arrow_visible (d : Diagram) :
    d.visible.interactions.mapM (arrow d.visible) = d.interactions.mapM (arrow d) := by
  rw [Diagram.visible, List.mapM_map]
  rfl

/-- What is not visible does not count for the drawing. -/
theorem tokens_visible (d : Diagram) (palette : Palette) (font : String) (transparent : Bool) :
    tokens d.visible palette font transparent = tokens d palette font transparent := by
  unfold tokens
  rw [contentWidth_visible, mapM_arrow_visible]
  rfl

end Drawing

/-- Diagrams that look the same are drawn the same. -/
theorem Diagram.draw_congr {d e : Diagram} (h : d.visible = e.visible) (palette : Palette)
    (font : String) (transparent : Bool) :
    d.draw palette font transparent = e.draw palette font transparent := by
  rw [draw, draw, ← Drawing.tokens_visible, h, Drawing.tokens_visible]

/-! ### Choosing a palette -/

/-- The palette that an appearance chooses for a chart with a given header. -/
def Appearance.palette (appearance : Appearance) (header : Header) : Palette :=
  (((Palette.themeOf? appearance header).bind Palette.find?).getD {}).override appearance

theorem Palette.ofTheme_result (theme : Option String) (s : σ) :
    (ofTheme theme s).result = .ok ((theme.bind find?).getD {}) := by
  rcases theme with - | theme
  · rfl
  · rcases h : find? theme with - | palette
    · simp only [ofTheme, h, Option.bind_some]
      rfl
    · simp only [ofTheme, h, Option.bind_some]
      rfl

/-- To choose a palette never fails. -/
theorem Palette.resolve_result (appearance : Appearance) (header : Header) (s : σ) :
    (resolve appearance header s).result = .ok (appearance.palette header) := by
  rw [resolve, Run.bind_result, ofTheme_result]
  rfl

/-! ### Rendering -/

/-- The SVG text of a diagram as an appearance asks for it, or the fault. -/
def Diagram.picture (d : Diagram) (appearance : Appearance) : Except Fault String :=
  (d.draw (appearance.palette d.header) ((appearance.font.bind nonempty?).getD "Inter")
    (appearance.transparent.getD false)).mapError .arithmetic

/-- What a run of the renderer gives is the picture. -/
theorem Diagram.render_result (d : Diagram) (appearance : Appearance) (s : σ) :
    (d.render appearance s).result = d.picture appearance := by
  rw [render, Run.bind_result, Palette.resolve_result]
  rfl

/-- A chart is built from its lines and then pictured. -/
theorem renderLines_result (measurer : Measurer σ) (layout : Layout) (appearance : Appearance)
    (texts : List String) (s : σ) :
    (renderLines measurer layout appearance texts s).result =
      ((Diagram.ofLines measurer layout texts s).result >>= fun d => d.picture appearance) := by
  rw [renderLines, Run.bind_result]
  congr 1
  funext d
  exact d.render_result appearance _

theorem renderChart_result (measurer : Measurer σ) (layout : Layout) (appearance : Appearance)
    (source : String) (s : σ) :
    (renderChart measurer layout appearance source s).result =
      ((Diagram.ofText measurer layout source s).result >>= fun d => d.picture appearance) :=
  renderLines_result measurer layout appearance (Text.splitLines source) s

end SequenceChart
