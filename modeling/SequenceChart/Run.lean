/-
SequenceChart/Run.lean

Runs: computations that leave a trace.

A run works on the state `σ` of whatever measures text, may stop with a
fault, and leaves the list of its events: the notices it gave and the texts
it asked to be measured.  Events and state up to a fault are kept.  The trace
is an output, so what a run does never depends on the events before it.
-/
import SequenceChart.Fault
import SequenceChart.Notice

namespace SequenceChart

/-- What can happen in a run. -/
inductive Event where
  | noticed (notice : Notice)
  /-- A text was handed over to be measured at a font size. -/
  | measured (text : String) (fontSize : Quantity)
  deriving DecidableEq

/-- The notice that was given, if the event is one. -/
def Event.notice? : Event → Option Notice
  | .noticed notice => some notice
  | .measured .. => none

/-- The text that was measured and its font size, if the event is a measurement. -/
def Event.measurement? : Event → Option (String × Quantity)
  | .noticed _ => none
  | .measured text fontSize => some (text, fontSize)

/-- What a run leaves behind. -/
structure Trace (σ α : Type) where
  events : List Event
  state : σ
  result : Except Fault α

/-- A computation that works on a state and leaves a trace. -/
def Run (σ α : Type) := σ → Trace σ α

namespace Run

variable {σ α β : Type}

/-! ### Sequencing -/

/-- A value without any event. -/
protected def pure (a : α) : Run σ α := fun s =>
  { events := [], state := s, result := .ok a }

/-- Run `m`, then what `f` makes of its result; a fault ends the run. -/
protected def bind (m : Run σ α) (f : α → Run σ β) : Run σ β := fun s =>
  match m s with
  | ⟨events, s', .error fault⟩ => ⟨events, s', .error fault⟩
  | ⟨events, s', .ok a⟩ =>
    let rest := f a s'
    ⟨events ++ rest.events, rest.state, rest.result⟩

instance : Monad (Run σ) where
  pure := Run.pure
  bind := Run.bind

theorem bind_apply_ok {m : Run σ α} {f : α → Run σ β} {s s' : σ} {events : List Event} {a : α}
    (h : m s = ⟨events, s', .ok a⟩) :
    (m >>= f) s = ⟨events ++ (f a s').events, (f a s').state, (f a s').result⟩ := by
  simp only [bind, Run.bind, h]

theorem bind_apply_error {m : Run σ α} {f : α → Run σ β} {s s' : σ} {events : List Event}
    {fault : Fault} (h : m s = ⟨events, s', .error fault⟩) :
    (m >>= f) s = ⟨events, s', .error fault⟩ := by
  simp only [bind, Run.bind, h]

instance : LawfulMonad (Run σ) := LawfulMonad.mk' (Run σ)
  (by
    intro α m
    funext s
    simp only [Functor.map, Run.bind]
    rcases m s with ⟨events, s', fault | a⟩ <;> simp [Run.pure])
  (by
    intro α β a f
    funext s
    simp [pure, bind, Run.pure, Run.bind])
  (by
    intro α β γ m f g
    funext s
    simp only [bind, Run.bind]
    rcases m s with ⟨events, s', fault | a⟩
    · rfl
    · dsimp only
      generalize f a s' = next
      rcases next with ⟨events', s'', fault | b⟩ <;> simp)

/-! ### Steps -/

/-- Stop with a fault. -/
def fail (fault : Fault) : Run σ α := fun s =>
  { events := [], state := s, result := .error fault }

/-- Leave an event in the trace. -/
def record (event : Event) : Run σ Unit := fun s =>
  { events := [event], state := s, result := .ok () }

/-- Give a notice. -/
def notify (notice : Notice) : Run σ Unit :=
  record (.noticed notice)

/-- The state of the measurer. -/
def getState : Run σ σ := fun s =>
  { events := [], state := s, result := .ok s }

/-- Replace the state of the measurer. -/
def setState (s : σ) : Run σ Unit := fun _ =>
  { events := [], state := s, result := .ok () }

/-- A calculation as a run without events. -/
def ofCalc (c : Calc α) : Run σ α := fun s =>
  { events := [], state := s, result := c.mapError .arithmetic }

instance : MonadLift (Except ArithmeticError) (Run σ) where
  monadLift := ofCalc

end Run

/-! ### Reading a trace -/

/-- The notices of a trace, in order. -/
def Trace.notices {σ α : Type} (t : Trace σ α) : List Notice :=
  t.events.filterMap Event.notice?

/-- The texts that were measured, with their font sizes, in order. -/
def Trace.measurements {σ α : Type} (t : Trace σ α) : List (String × Quantity) :=
  t.events.filterMap Event.measurement?

end SequenceChart
