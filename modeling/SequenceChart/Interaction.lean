/-
SequenceChart/Interaction.lean

Interactions: the arrows of a chart, in document order.

A second pass over the interaction lines binds both endpoints to resolved
participants.  Of several participants of one name the last one counts.
-/
import SequenceChart.Participant

namespace SequenceChart

/-! ### Directions -/

/-- Where an arrow points. -/
inductive Direction where
  | rightward
  | leftward
  /-- From a participant to itself. -/
  | loop
  deriving DecidableEq, Repr

namespace Direction

/-- The direction between two participants, by their indices. -/
def between (sender receiver : Participant) : Direction :=
  if sender.index < receiver.index then rightward
  else if receiver.index < sender.index then leftward
  else loop

end Direction

/-! ### Interactions -/

/-- An interaction between resolved participants. -/
structure Interaction where
  /-- The row, from zero. -/
  row : Int
  sender : Participant
  receiver : Participant
  direction : Direction
  message : Option String := none
  /-- The number of the line that the interaction was read from. -/
  lineNumber : Int := 0
  deriving DecidableEq

/-- The last participant of a name. -/
def lastNamed? (participants : List Participant) (name : String) : Option Participant :=
  participants.findRev? fun p => p.name = name

/-- The participant that an endpoint of a line stands for. -/
def bindEndpoint (participants : List Participant) (line : Line) (name : Option String) :
    Except DiagramError Participant :=
  match name.bind (lastNamed? participants) with
  | some p => .ok p
  | none => .error (.missingParticipant line.number (name.getD "") line.text)

/-- The interaction of a line in a row. -/
def bindLine (participants : List Participant) (line : Line) (row : Nat) :
    Except DiagramError Interaction := do
  let sender ← bindEndpoint participants line line.sender
  let receiver ← bindEndpoint participants line line.receiver
  return {
    row := row
    sender := sender
    receiver := receiver
    direction := .between sender receiver
    message := if line.kind = .interactionWithMessage then line.message else none
    lineNumber := line.number }

/-- Bind the interaction lines, each to the row of its position among them. -/
def bindLines (participants : List Participant) (lines : List Line) :
    Except DiagramError (List Interaction) :=
  (Line.interactions lines).zipIdx.mapM fun (line, row) => bindLine participants line row

/-- The interactions of the interaction lines. -/
def resolveInteractions {σ : Type} (participants : List Participant) (lines : List Line) :
    Run σ (List Interaction) :=
  match bindLines participants lines with
  | .error e => Run.fail (.diagram e)
  | .ok interactions => do
    Run.notify (.interactionsResolved interactions.length)
    return interactions

end SequenceChart
