/-
SequenceChart/Drawing.lean

Drawing a diagram as SVG.

All geometry comes from the diagram; only what the drawing adds of its own
(the header band, the loops of self references, strokes and arrow heads) is
defined here.  From back to front there are the header, the lifelines, the
activation boxes, the interactions with their messages, and the participant
boxes.  Colours are style variables of the root element, from which a style
block derives the ones that the shapes use.
-/
import SequenceChart.Diagram
import SequenceChart.Markup.Token
import SequenceChart.Palette
import SequenceChart.Text.Percent

namespace SequenceChart

open Markup

namespace Drawing

/-! ### Constants -/

/-- The width of an activation box. -/
def activationWidth : Quantity := .int 10
/-- How far a loop reaches to the right of its lifeline. -/
def loopWidth : Quantity := .int 30
/-- How far a loop reaches down. -/
def loopHeight : Quantity := .int 20
/-- From a message to its arrow. -/
def labelOffset : Quantity := .int 6
/-- The size of the arrow head along its arrow. -/
def arrowHeadWidth : Quantity := .int 8
/-- The size of the arrow head across its arrow. -/
def arrowHeadHeight : Quantity := .float 4.8

/-- The shift that centres a line of text on its position. -/
def baselineShift : Attribute := ("dy", "0.35em")

/-- A font weight, as an attribute has it. -/
def weightText (weight : Int) : String :=
  (Quantity.int weight).text

/-! ### The root element -/

/-- A style variable, unless it has no value. -/
def styleVariable (name : String) (value : Option String) : List String :=
  match value.bind nonempty? with
  | some v => ["--" ++ name ++ ":" ++ v]
  | none => []

/-- The style variables of a palette; background and foreground always have a value. -/
def styleVariables (palette : Palette) : List String :=
  ["--bg:" ++ palette.bg, "--fg:" ++ palette.fg] ++
    styleVariable "line" palette.line ++ styleVariable "accent" palette.accent ++
    styleVariable "muted" palette.muted ++ styleVariable "surface" palette.surface ++
    styleVariable "border" palette.border

/-- The start tag of the whole drawing, which sets its size and colours. -/
def rootTag (size : Size) (palette : Palette) (transparent : Bool) : Token :=
  let width := size.width.text
  let height := size.height.text
  .start "svg"
    [("xmlns", "http://www.w3.org/2000/svg"),
     ("viewBox", "0 0 " ++ width ++ " " ++ height),
     ("width", width),
     ("height", height),
     ("style", String.intercalate ";" (styleVariables palette) ++
        (if transparent then "" else ";background:var(--bg)"))]

/-! ### The style block -/

/-- A mixture of the foreground, by per cent, into the background. -/
def mixture (percent : String) : String :=
  "color-mix(in srgb, var(--fg) " ++ percent ++ "%, var(--bg))"

/-- The colours that the shapes use, each one set by the palette or else derived from
background and foreground. -/
def derivedVariables : List String :=
  ["    /* Derived from --bg and --fg (overridable via --line, --accent, etc.) */",
   "    --_text:          var(--fg);",
   "    --_text-muted:    var(--muted, " ++ mixture "40" ++ ");",
   "    --_line:          var(--line, " ++ mixture "30" ++ ");",
   "    --_arrow:         var(--accent, " ++ mixture "50" ++ ");",
   "    --_box-fill:      var(--surface, " ++ mixture "3" ++ ");",
   "    --_box-stroke:    var(--border, " ++ mixture "20" ++ ");",
   "    --_activation:    " ++ mixture "8" ++ ";"]

/-- The lines of the style sheet, for a font by its name. -/
def styleSheet (font : String) : List String :=
  ["  @import url('https://fonts.googleapis.com/css2?family=" ++ Text.percentEncode font ++
      ":wght@400;500;600&amp;display=swap');",
   "  text \x7b font-family: '" ++ font ++ "', system-ui, sans-serif; \x7d",
   "  svg \x7b"] ++ derivedVariables ++ ["  \x7d"]

/-- The element with the style sheet. -/
def styleBlock (font : String) : List Token :=
  [.start "style" [],
   .data ("\n" ++ String.intercalate "\n" (styleSheet font) ++ "\n"),
   .finish "style"]

/-! ### The arrow head -/

/-- The arrow head, which the arrows refer to. -/
def arrowMarker : Calc (List Token) := do
  let middle ← arrowHeadHeight.half
  let width := arrowHeadWidth.text
  let height := arrowHeadHeight.text
  return [
    .data "  ",
    .start "marker"
      [("id", "seq-arrow"), ("markerWidth", width), ("markerHeight", height),
       ("refX", width), ("refY", middle.text), ("orient", "auto-start-reverse")],
    .data "\n    ",
    .void "polygon"
      [("points", "0 0, " ++ width ++ " " ++ middle.text ++ ", 0 " ++ height),
       ("fill", "var(--_arrow)")],
    .data "\n  ",
    .finish "marker"]

/-- The reference of an arrow to its head. -/
def arrowHead : Attribute := ("marker-end", "url(#seq-arrow)")

/-! ### The header band -/

/-- What a line of the header band is. -/
inductive HeaderRole where
  | title
  | byline
  deriving DecidableEq, Repr

/-- A line of the header band. -/
structure HeaderLine where
  role : HeaderRole
  text : String
  deriving DecidableEq, Repr

/-- The lines of the header band: the title, and author and date in one. -/
def headerLines (header : Header) : List HeaderLine :=
  let title := (header.title.bind nonempty?).toList
  let byline := String.intercalate " · " ([header.author, header.date].filterMap (·.bind nonempty?))
  title.map (HeaderLine.mk .title) ++ (nonempty? byline).toList.map (HeaderLine.mk .byline)

/-- The font size of a header line, by its role. -/
def HeaderLine.fontSize (line : HeaderLine) (layout : Layout) : Quantity :=
  match line.role with
  | .title => layout.titleFontSize
  | .byline => layout.messageFontSize

/-- The font weight of a header line, by its role. -/
def HeaderLine.weight (line : HeaderLine) : Int :=
  match line.role with
  | .title => titleWeight
  | .byline => messageWeight

/-- The colour of a header line, by its role. -/
def HeaderLine.fill (line : HeaderLine) : String :=
  match line.role with
  | .title => "var(--_text)"
  | .byline => "var(--_text-muted)"

/-- The bottom of a header line with its top at `y`. -/
def HeaderLine.bottom (layout : Layout) (y : Quantity) (line : HeaderLine) : Calc Quantity := do
  let height ← estimateHeight (line.fontSize layout)
  y.add height

/-- The height of the header band; without a line there is none. -/
def headerHeight (layout : Layout) (lines : List HeaderLine) : Calc Quantity :=
  if lines.isEmpty then .ok (.int 0)
  else lines.foldlM (HeaderLine.bottom layout) layout.padding

/-- Draw a header line with its top at `y`: its text is centred on the middle of the
line, and starts at the inset. -/
def HeaderLine.draw (layout : Layout) (y : Quantity) (line : HeaderLine) : Calc (List Token) := do
  let fontSize := line.fontSize layout
  let height ← estimateHeight fontSize
  let x ← layout.inset
  let half ← height.half
  let middle ← y.add half
  return labelled "text"
    [("x", x.text), ("y", middle.text), baselineShift, ("font-size", fontSize.text),
     ("font-weight", weightText line.weight), ("fill", line.fill)]
    line.text

/-- Draw header lines below each other, the first one with its top at `y`. -/
def drawHeader (layout : Layout) : Quantity → List HeaderLine → Calc (List (List Token))
  | _, [] => .ok []
  | y, line :: lines => do
    let drawn ← line.draw layout y
    let next ← line.bottom layout y
    let rest ← drawHeader layout next lines
    return drawn :: rest

/-! ### Participants -/

/-- The dashed line from a participant's box to the bottom inset. -/
def lifeline (d : Diagram) (p : Participant) : Calc (List Token) := do
  let x ← d.lifelineX p
  let inset ← d.layout.inset
  let top ← inset.add d.boxHeight
  let inset ← d.layout.inset
  let bottom ← d.canvas.height.sub inset
  return [.void "line"
    [("x1", x.text), ("y1", top.text), ("x2", x.text), ("y2", bottom.text),
     ("stroke", "var(--_line)"), ("stroke-width", "0.75"), ("stroke-dasharray", "6 4")]]

/-- The box over the rows in which a participant is active. -/
def activation (d : Diagram) (p : Participant) : Calc (List Token) := do
  let half ← activationWidth.half
  let middle ← d.lifelineX p
  let x ← middle.sub half
  let first ← d.arrowY p.firstRow
  let top ← first.sub half
  let last ← d.arrowY p.lastRow
  let bottom ← last.add half
  let height ← bottom.sub top
  return [.void "rect"
    [("x", x.text), ("y", top.text), ("width", activationWidth.text), ("height", height.text),
     ("fill", "var(--_activation)"), ("stroke", "var(--_box-stroke)"),
     ("stroke-width", "0.75")]]

/-- The box of a participant with its name. -/
def participantBox (d : Diagram) (p : Participant) : Calc (List Token) := do
  let y ← d.layout.inset
  let width ← d.boxWidth p
  let halfWidth ← width.half
  let middle ← p.x.add halfWidth
  let halfHeight ← d.boxHeight.half
  let centre ← y.add halfHeight
  return .void "rect"
      [("x", p.x.text), ("y", y.text), ("width", width.text), ("height", d.boxHeight.text),
       ("rx", "4"), ("ry", "4"), ("fill", "var(--_box-fill)"), ("stroke", "var(--_box-stroke)"),
       ("stroke-width", "1")] ::
    .data "\n" ::
    labelled "text"
      [("x", middle.text), ("y", centre.text), ("text-anchor", "middle"), baselineShift,
       ("font-size", d.layout.participantFontSize.text),
       ("font-weight", weightText participantWeight), ("fill", "var(--_text)")]
      p.name

/-! ### Interactions -/

/-- The label of a message, on a line of its own; an empty one has none. -/
def messageLabel (layout : Layout) (message : Option String) (placing : List Attribute) :
    List Token :=
  match message.bind nonempty? with
  | none => []
  | some text =>
    .data "\n" :: labelled "text"
      (placing ++
        [("font-size", layout.messageFontSize.text), ("font-weight", weightText messageWeight),
         ("fill", "var(--_text-muted)")])
      text

/-- A point, as a list of points has it. -/
def point (x y : Quantity) : String :=
  x.text ++ "," ++ y.text

/-- A self reference: out to the right and back to the lifeline. -/
def loopArrow (layout : Layout) (x1 x2 y : Quantity) (message : Option String) :
    Calc (List Token) := do
  let right ← x1.add loopWidth
  let bottom ← y.add loopHeight
  let labelX ← right.add labelOffset
  let half ← loopHeight.half
  let labelY ← y.add half
  let points :=
    [point x1 y, point right y, point right bottom, point x2 bottom]
  return .void "polyline"
      [("points", String.intercalate " " points), ("fill", "none"), ("stroke", "var(--_line)"),
       ("stroke-width", "0.75"), arrowHead] ::
    messageLabel layout message [("x", labelX.text), ("y", labelY.text), baselineShift]

/-- An arrow between two lifelines, its message centred above it. -/
def straightArrow (layout : Layout) (x1 x2 y : Quantity) (message : Option String) :
    Calc (List Token) := do
  let sum ← x1.add x2
  let middle ← sum.half
  let above ← y.sub labelOffset
  return .void "line"
      [("x1", x1.text), ("y1", y.text), ("x2", x2.text), ("y2", y.text),
       ("stroke", "var(--_line)"), ("stroke-width", "0.75"), arrowHead] ::
    messageLabel layout message
      [("x", middle.text), ("y", above.text), ("text-anchor", "middle")]

/-- The arrow of an interaction, with its message. -/
def arrow (d : Diagram) (i : Interaction) : Calc (List Token) := do
  let x1 ← d.lifelineX i.sender
  let x2 ← d.lifelineX i.receiver
  let y ← d.arrowY i.row
  if i.direction = .loop then loopArrow d.layout x1 x2 y i.message
  else straightArrow d.layout x1 x2 y i.message

/-! ### The whole -/

/-- The width with room for the message of one more interaction: that of a
self reference may run past the right edge. -/
def widen (d : Diagram) (width : Quantity) (i : Interaction) : Calc Quantity :=
  if i.direction = .loop then do
    let x ← d.lifelineX i.sender
    let right ← x.add loopWidth
    let start ← right.add labelOffset
    let label ← estimateWidth (i.message.getD "") d.layout.messageFontSize messageWeight
    let ending ← start.add label
    let inset ← d.layout.inset
    let needed ← ending.add inset
    return width.max needed
  else .ok width

/-- The width with room for all messages: at least that of the canvas. -/
def contentWidth (d : Diagram) : Calc Quantity :=
  d.interactions.foldlM (widen d) d.canvas.width

/-- The tokens of a drawing. -/
def tokens (d : Diagram) (palette : Palette) (font : String) (transparent : Bool) :
    Calc (List Token) := do
  let header := headerLines d.header
  let band ← headerHeight d.layout header
  let width ← contentWidth d
  let height ← d.canvas.height.add band
  let marker ← arrowMarker
  let headerText ← drawHeader d.layout d.layout.padding header
  let lifelines ← d.participants.mapM (lifeline d)
  let activations ← d.participants.mapM (activation d)
  let arrows ← d.interactions.mapM (arrow d)
  let boxes ← d.participants.mapM (participantBox d)
  -- the chart is drawn below the header band, from back to front
  return onLines (
    [[rootTag { width := width, height := height } palette transparent],
     styleBlock font,
     [.start "defs" []], marker, [.finish "defs"]] ++
    headerText ++
    [[.start "g" [("transform", "translate(0," ++ band.text ++ ")")]]] ++
    lifelines ++ activations ++ arrows ++ boxes ++
    [[.finish "g"], [.finish "svg"]])

end Drawing

/-- The SVG text of a diagram. -/
def Diagram.draw (d : Diagram) (palette : Palette) (font : String := "Inter")
    (transparent : Bool := false) : Calc String := do
  let tokens ← Drawing.tokens d palette font transparent
  return Markup.print tokens

end SequenceChart
