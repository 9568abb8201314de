/-
SequenceChart/Measure/Basic.lean

Measurers: whatever tells how much room a text takes.

A measurer may keep a state, may fail, and may give notices.  One that does
none of this but fail is a function of the text and its font size.
-/
import SequenceChart.Run

namespace SequenceChart

/-- A width and a height. -/
structure Size where
  width : Quantity
  height : Quantity
  deriving DecidableEq

instance : Inhabited Size := ⟨⟨.int 0, .int 0⟩⟩

/-- The room that a text takes at a font size. -/
abbrev Measurer (σ : Type) := String → Quantity → Run σ Size

namespace Measurer

variable {σ : Type}

/-- A measurer without state or notices. -/
def ofFunction (f : String → Quantity → Except Fault Size) : Measurer σ :=
  fun text fontSize s => { events := [], state := s, result := f text fontSize }

/-- Measure a text, and leave the request in the trace. -/
def ask (measurer : Measurer σ) (text : String) (fontSize : Quantity) : Run σ Size := do
  Run.record (.measured text fontSize)
  measurer text fontSize

end Measurer

end SequenceChart
