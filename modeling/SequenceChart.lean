import SequenceChart.Text.Blank
import SequenceChart.Text.Lines
import SequenceChart.Text.Hex
import SequenceChart.Text.Printable
import SequenceChart.Text.Quoted
import SequenceChart.Text.Percent
import SequenceChart.Text.Terminal
import SequenceChart.Number.Binary
import SequenceChart.Number.Shortest
import SequenceChart.Number.Notation
import SequenceChart.Quantity
import SequenceChart.Layout
import SequenceChart.Line
import SequenceChart.Line.Classify
import SequenceChart.Notice
import SequenceChart.Fault
import SequenceChart.Run
import SequenceChart.Measure.Basic
import SequenceChart.Measure.Estimate
import SequenceChart.Measure.Font
import SequenceChart.Participant
import SequenceChart.Interaction
import SequenceChart.Canvas
import SequenceChart.Header
import SequenceChart.Diagram
import SequenceChart.Palette
import SequenceChart.Markup.Escape
import SequenceChart.Markup.Token
import SequenceChart.Drawing
import SequenceChart.Chart
import SequenceChart.Cli.Arguments
import SequenceChart.Cli.Path
import SequenceChart.Cli.FileTree
import SequenceChart.Cli.Decoder
import SequenceChart.Cli.Platform
import SequenceChart.Cli.Program
import SequenceChart.Main
import SequenceChart.Proofs.Run
import SequenceChart.Proofs.FirstOccurrence
import SequenceChart.Proofs.Mention
import SequenceChart.Proofs.Roster
import SequenceChart.Proofs.Binding
import SequenceChart.Proofs.Build
import SequenceChart.Proofs.Coherence
import SequenceChart.Proofs.Integral
import SequenceChart.Proofs.Measuring
import SequenceChart.Proofs.Number.Rounding
import SequenceChart.Proofs.Number.Notation
import SequenceChart.Proofs.Measure.Font
import SequenceChart.Proofs.Tiling
import SequenceChart.Proofs.Continuation
import SequenceChart.Proofs.Text.Trim
import SequenceChart.Proofs.Line.Separator
import SequenceChart.Proofs.Line.Pattern
import SequenceChart.Proofs.Line.Grammar
import SequenceChart.Proofs.Line.Written
import SequenceChart.Proofs.Role
import SequenceChart.Proofs.Markup.Escape
import SequenceChart.Proofs.Markup.Cut
import SequenceChart.Proofs.Markup.Erasure
import SequenceChart.Proofs.Markup.Plain
import SequenceChart.Proofs.Markup.Attribute
import SequenceChart.Proofs.Markup.Character
import SequenceChart.Proofs.Markup.Tame
import SequenceChart.Proofs.Piece
import SequenceChart.Proofs.Outline
import SequenceChart.Proofs.Rendering
import SequenceChart.Proofs.Source
import SequenceChart.Proofs.Stacking
import SequenceChart.Proofs.Interleaving
import SequenceChart.Proofs.Header
import SequenceChart.Proofs.Theme
import SequenceChart.Proofs.Label
import SequenceChart.Proofs.Renaming
import SequenceChart.Proofs.Reordering
import SequenceChart.Proofs.Growth
import SequenceChart.Proofs.Origin
import SequenceChart.Proofs.Document
import SequenceChart.Proofs.Lineup
import SequenceChart.Proofs.Pairing
import SequenceChart.Proofs.Chronicle
import SequenceChart.Proofs.Cli.Input
import SequenceChart.Proofs.Text.Terminal
import SequenceChart.Proofs.Cli.FileTree
import SequenceChart.Proofs.Cli.Report
import SequenceChart.Proofs.Vacant
import SequenceChart.Proofs.Cli.Saving
import SequenceChart.Proofs.Wording
import SequenceChart.Proofs.Rewording
import SequenceChart.Proofs.Alignment
