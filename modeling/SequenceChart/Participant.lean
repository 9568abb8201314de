/-
SequenceChart/Participant.lean

Participants: who takes part in a chart, in the order of first mention.

One pass over the interaction lines reads their endpoints, the sender before
the receiver.  A name that is new is measured once and gets the next index
and the place at the cursor; a name that is known has its active span
extended to the current row.  In the end all labels share one height, that of
the tallest.
-/
import SequenceChart.Layout
import SequenceChart.Line
import SequenceChart.Measure.Basic

namespace SequenceChart

/-- A participant with its place on the canvas. -/
structure Participant where
  name : String
  /-- The position in the order of first mention, from zero. -/
  index : Int
  /-- The first and the last row, counted over interactions, that names the
  participant. -/
  firstRow : Int
  lastRow : Int
  /-- The left edge of the box. -/
  x : Quantity
  labelWidth : Quantity
  labelHeight : Quantity
  deriving DecidableEq

/-! ### Mentions -/

/-- An endpoint of the interaction in a row; it may lack a name. -/
structure Mention where
  row : Nat
  name : Option String
  deriving DecidableEq, Repr

/-- The mentions of the interaction lines in order, the sender's first. -/
def mentions (lines : List Line) : List Mention :=
  (Line.interactions lines).zipIdx.flatMap fun (line, row) =>
    [⟨row, line.sender⟩, ⟨row, line.receiver⟩]

/-! ### The roster -/

/-- The participants met so far, in order, and where the next one goes. -/
structure Roster where
  entries : List Participant := []
  cursor : Quantity
  deriving DecidableEq

namespace Roster

variable {σ : Type}

/-- Whether a name was mentioned before. -/
def knows (roster : Roster) (name : String) : Bool :=
  roster.entries.any fun p => p.name = name

/-- Extend the span of a known participant to a row. -/
def extend (roster : Roster) (name : String) (row : Nat) : Roster :=
  { roster with
    entries := roster.entries.map fun p => if p.name = name then { p with lastRow := row } else p }

/-- Measure a new participant and put it at the cursor. -/
def enter (measurer : Measurer σ) (layout : Layout) (roster : Roster) (name : String)
    (row : Nat) : Run σ Roster := do
  let size ← measurer.ask name layout.participantFontSize
  let gap ← layout.participantGap
  let advance ← size.width.add gap
  -- the next box stands behind this one and a gap
  let cursor ← roster.cursor.add advance
  return {
    entries := roster.entries ++
      [{ name := name, index := roster.entries.length, firstRow := row, lastRow := row
         x := roster.cursor, labelWidth := size.width, labelHeight := size.height }]
    cursor := cursor }

/-- Take note of a mention. -/
def mention (measurer : Measurer σ) (layout : Layout) (roster : Roster) (m : Mention) :
    Run σ Roster :=
  match m.name with
  | none => Run.fail .unnamedEndpoint
  | some name =>
    if roster.knows name then pure (roster.extend name m.row)
    else enter measurer layout roster name m.row

/-- The participants of a complete roster, with one label height for all. -/
def participants (roster : Roster) : List Participant :=
  match roster.entries with
  | [] => []
  | first :: rest =>
    let height := Quantity.maximum first.labelHeight (rest.map Participant.labelHeight)
    (first :: rest).map fun p => { p with labelHeight := height }

end Roster

/-- The participants of the interaction lines. -/
def resolveParticipants {σ : Type} (measurer : Measurer σ) (layout : Layout)
    (lines : List Line) : Run σ (List Participant) := do
  let start ← layout.inset
  let roster ← (mentions lines).foldlM (Roster.mention measurer layout) { cursor := start }
  let participants := roster.participants
  if participants.isEmpty then return []
  Run.notify (.participantsResolved participants.length (Line.interactions lines).length)
  return participants

end SequenceChart
