/-
SequenceChart/Proofs/Build.lean

The steps of building a diagram.

A diagram is built by reporting, resolving and sizing, one after the other.
`Diagram.build_result_ok` takes a built diagram apart into the results of
these steps; everything that is said of built diagrams starts from there.
`Diagram.build_result` says the same of builds that fail: only the pass over the
participants runs, and all that comes after it is a calculation.
-/
import SequenceChart.Diagram
import SequenceChart.Proofs.Binding
import SequenceChart.Proofs.Roster

namespace SequenceChart

variable {σ : Type} {measurer : Measurer σ} {layout : Layout} {lines : List Line}

/-- The pass over the interactions binds the lines. -/
theorem resolveInteractions_result (participants : List Participant) (lines : List Line) (s : σ) :
    (resolveInteractions participants lines s).result =
      (bindLines participants lines).mapError .diagram := by
  unfold resolveInteractions
  rcases bindLines participants lines with e | interactions <;> rfl

theorem resolveInteractions_result_ok {participants : List Participant} {s : σ}
    {interactions : List Interaction}
    (h : (resolveInteractions participants lines s).result = .ok interactions) :
    bindLines participants lines = .ok interactions := by
  unfold resolveInteractions at h
  rcases hb : bindLines participants lines with e | bound
  · rw [hb] at h
    cases h
  · rw [hb] at h
    exact congrArg Except.ok (Except.ok.inj h)

/-- A measurer of whole numbers: every character is as wide as the others. -/
def Measurer.fixedWidth (width height : Int) : Measurer σ :=
  .ofFunction fun text _ => .ok { width := .int (width * text.length), height := .int height }

namespace Diagram

/-- The steps that a built diagram comes from.  What is reported and noticed
on the way leaves no mark on it. -/
theorem build_result_ok {s : σ} {d : Diagram} (h : (build measurer layout lines s).result = .ok d) :
    ∃ s', (resolveParticipants measurer layout lines s').result = .ok d.participants ∧
      bindLines d.participants lines = .ok d.interactions ∧
      canvasSize d.participants d.interactions.length layout = .ok d.canvas ∧
      SequenceChart.boxHeight d.participants layout = .ok d.boxHeight ∧
      d.header = Header.collect lines ∧ d.issues = Line.issues lines ∧ d.layout = layout := by
  simp only [build, Run.bind_result_ok, Run.liftM_eq_ofCalc, Run.ofCalc_result_ok] at h
  obtain ⟨_, -, participants, hp, interactions, hi, canvas, hc, _, -, height, hh, h⟩ := h
  obtain rfl := Except.ok.inj h
  exact ⟨_, hp, resolveInteractions_result_ok hi, hc, hh, rfl, rfl, rfl⟩

/-- A diagram that is read from a text or from lines is built of classified
lines. -/
theorem exists_build_of_source {s : σ} {d : Diagram}
    (h : (∃ source, (ofText measurer layout source s).result = .ok d) ∨
      ∃ texts, (ofLines measurer layout texts s).result = .ok d) :
    ∃ texts, (build measurer layout (Line.classifyAll texts) s).result = .ok d := by
  rcases h with ⟨source, h⟩ | ⟨texts, h⟩
  · exact ⟨Text.splitLines source, h⟩
  · exact ⟨texts, h⟩

/-! ### Builds as calculations -/

/-- What is left to do once the participants are resolved. -/
def ofParticipants (layout : Layout) (lines : List Line) (participants : List Participant) :
    Except Fault Diagram := do
  let interactions ← (bindLines participants lines).mapError .diagram
  let canvas ← (canvasSize participants interactions.length layout).mapError .arithmetic
  let height ← (SequenceChart.boxHeight participants layout).mapError .arithmetic
  return {
    participants := participants
    interactions := interactions
    canvas := canvas
    boxHeight := height
    header := Header.collect lines
    issues := Line.issues lines
    layout := layout }

/-- With the interactions bound, the canvas and the boxes are left to be sized. -/
theorem ofParticipants_of_bindLines {participants : List Participant}
    {interactions : List Interaction} (h : bindLines participants lines = .ok interactions) :
    ofParticipants layout lines participants = (do
      let canvas ← (canvasSize participants interactions.length layout).mapError .arithmetic
      let height ← (SequenceChart.boxHeight participants layout).mapError .arithmetic
      return {
        participants := participants
        interactions := interactions
        canvas := canvas
        boxHeight := height
        header := Header.collect lines
        issues := Line.issues lines
        layout := layout }) := by
  rw [ofParticipants, h]
  rfl

/-- The issues are reported one by one, and nothing else happens. -/
theorem forM_reportIssue (lines : List Line) (s : σ) :
    (lines.forM reportIssue : Run σ Unit) s =
      ⟨lines.map fun line => .noticed (.ignoredLine line.number (Text.trim line.text)), s,
        .ok ()⟩ := by
  induction lines with
  | nil => rfl
  | cons line lines ih =>
      rw [List.forM_eq_forM] at ih
      rw [List.forM_eq_forM, List.forM_cons, Run.bind_apply_ok (by rfl), ih]
      rfl

/-- A build fails or succeeds as the pass over the participants does, and then
as the calculation that follows. -/
theorem build_result (measurer : Measurer σ) (layout : Layout) (lines : List Line) (s : σ) :
    (build measurer layout lines s).result =
      ((resolveParticipants measurer layout lines s).result >>= ofParticipants layout lines) := by
  rw [build, Run.bind_result, forM_reportIssue]
  -- the steps are taken off one by one, in the order of the pass
  show ((resolveParticipants measurer layout lines >>= _) s).result = _
  rw [Run.bind_result]
  congr 1
  funext participants
  rw [Run.bind_result, resolveInteractions_result]
  unfold ofParticipants
  congr 1
  funext interactions
  rw [Run.liftM_eq_ofCalc, Run.bind_result]
  congr 1
  funext canvas
  rw [Run.bind_result, Run.liftM_eq_ofCalc]
  exact Run.bind_result _ _ _

end Diagram

end SequenceChart
