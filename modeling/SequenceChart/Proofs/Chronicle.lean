/-
SequenceChart/Proofs/Chronicle.lean

The trace of a build, from its first event to its last.

A build reports its issues before anything else, then measures, and speaks up
again only when nothing is left to be measured.  Its trace is therefore cut in
three: the warnings about the reported lines, the requests to the measurer,
and the closing notices (`Diagram.Chronicle`).  A build that fails in between
has given every warning already, and gives no closing notice.

The measurer is any that gives no notices of its own.  Quietness is then
carried through the pass over the participants; what comes after that pass is
a calculation, and its notices are read off its steps.
-/
import SequenceChart.Proofs.Measuring

namespace SequenceChart

variable {σ : Type} {measurer : Measurer σ} {layout : Layout} {lines : List Line}

/-! ### Quiet measurers -/

/-- The measurer gives no notice, whatever it is asked. -/
def Measurer.Quiet (measurer : Measurer σ) : Prop :=
  ∀ text fontSize, (measurer text fontSize).Quiet

theorem Measurer.quiet_ofFunction (f : String → Quantity → Except Fault Size) :
    (ofFunction f : Measurer σ).Quiet := fun _ _ _ => rfl

theorem Measurer.Quiet.ask (h : measurer.Quiet) (text : String) (fontSize : Quantity) :
    (measurer.ask text fontSize).Quiet :=
  Run.Quiet.bind (fun _ => rfl) fun _ => h text fontSize

theorem Roster.quiet_mention (h : measurer.Quiet) (roster : Roster) (m : Mention) :
    (mention measurer layout roster m).Quiet := by
  obtain ⟨row, - | name⟩ := m
  · exact Run.Quiet.fail _
  · unfold mention
    by_cases hk : roster.knows name
    · simp only [hk, if_true]
      exact Run.Quiet.pure _
    · simp only [hk]
      refine (h.ask _ _).bind fun size => ?_
      refine (Run.Quiet.ofCalc _).bind fun gap => ?_
      refine (Run.Quiet.ofCalc _).bind fun advance => ?_
      exact (Run.Quiet.ofCalc _).bind fun cursor => Run.Quiet.pure _

/-! ### The passes -/

/-- What is noticed of the resolved participants: nothing if there are none. -/
def participantNotices (participants : List Participant) (interactions : Nat) : List Notice :=
  if participants = [] then [] else [.participantsResolved participants.length interactions]

/-- The pass over the participants measures, and gives its notice at the end if
it gets there. -/
theorem resolveParticipants_trace (h : measurer.Quiet) (layout : Layout) (lines : List Line)
    (s : σ) : ∃ asked : List Event, (∀ event ∈ asked, event.notice? = none) ∧
      ((∃ s' fault, resolveParticipants measurer layout lines s = ⟨asked, s', .error fault⟩) ∨
        ∃ s' participants, resolveParticipants measurer layout lines s =
          ⟨asked ++ (participantNotices participants (Line.interactions lines).length).map .noticed,
            s', .ok participants⟩) := by
  -- up to the notice at the end nothing but measuring is done
  have hmeasuring : Run.Quiet ((liftM layout.inset : Run σ Quantity) >>= fun start =>
      (mentions lines).foldlM (Roster.mention measurer layout) { cursor := start }) :=
    (Run.Quiet.ofCalc _).bind fun start => Run.Quiet.foldlM (Roster.quiet_mention h) _
  have hasked := hmeasuring.notice?_eq_none s
  unfold resolveParticipants
  rw [← bind_assoc]
  rcases hm : (((liftM layout.inset : Run σ Quantity) >>= fun start =>
      (mentions lines).foldlM (Roster.mention measurer layout) { cursor := start }) s) with
    ⟨asked, s', fault | roster⟩
  · rw [hm] at hasked
    exact ⟨asked, hasked, .inl ⟨s', fault, Run.bind_apply_error hm⟩⟩
  · rw [hm] at hasked
    refine ⟨asked, hasked, .inr ⟨s', roster.participants, ?_⟩⟩
    rw [Run.bind_apply_ok hm]
    -- without participants there is no notice
    by_cases hnone : roster.participants = []
    · simp only [hnone, List.isEmpty_nil, if_true]
      rfl
    · simp only [participantNotices, hnone, List.isEmpty_iff, if_false]
      rfl

/-- The pass over the interactions gives its notice once they are bound. -/
theorem resolveInteractions_trace {participants : List Participant}
    {interactions : List Interaction} (h : bindLines participants lines = .ok interactions)
    (s : σ) : resolveInteractions participants lines s =
      ⟨[.noticed (.interactionsResolved interactions.length)], s, .ok interactions⟩ := by
  unfold resolveInteractions
  rw [h]
  rfl

/-! ### The whole trace -/

/-- What is noticed of the reported lines. -/
def Line.issueNotices (lines : List Line) : List Notice :=
  (Line.issues lines).map fun line => .ignoredLine line.number (Text.trim line.text)

/-- An ignored line is warned of. -/
theorem Line.severity_of_mem_issueNotices {notice : Notice}
    (h : notice ∈ Line.issueNotices lines) : notice.severity = .warning := by
  obtain ⟨line, -, rfl⟩ := List.mem_map.mp h
  rfl

namespace Diagram

/-- The notices that a build ends with. -/
def closing (d : Diagram) : List Notice :=
  participantNotices d.participants d.interactions.length ++
    [.interactionsResolved d.interactions.length, .canvasSized d.canvas.width d.canvas.height]

/-- How the trace `t` of a build of `lines` reads: the issues, then the requests
`asked`, then the notices `told`. -/
structure Chronicle (lines : List Line) (t : Trace σ Diagram) (asked : List Event)
    (told : List Notice) : Prop where
  order : t.events = (Line.issueNotices lines).map .noticed ++ asked ++ told.map .noticed
  requests : ∀ event ∈ asked, event.notice? = none
  severity : ∀ notice ∈ told, notice.severity = .debug
  ended : ∀ d, t.result = .ok d → told = d.closing
  /-- A build that fails, but not for the arithmetic of its canvas, has closed
  nothing. -/
  broken : ∀ fault, t.result = .error fault → (∀ e, fault ≠ .arithmetic e) → told = []

namespace Chronicle

variable {t : Trace σ Diagram} {asked : List Event} {told : List Notice}

/-- The warnings come first. -/
theorem notices (h : Chronicle lines t asked told) :
    t.notices = Line.issueNotices lines ++ told := by
  have hasked : asked.filterMap Event.notice? = [] := List.filterMap_eq_nil_iff.mpr h.requests
  have hnoticed : ∀ ns : List Notice, (ns.map Event.noticed).filterMap Event.notice? = ns := by
    intro ns
    rw [List.filterMap_map]
    exact List.filterMap_some
  rw [Trace.notices, h.order, List.filterMap_append, List.filterMap_append, hasked, hnoticed,
    hnoticed, List.append_nil]

/-- Nothing is warned of but the reported lines. -/
theorem warnings (h : Chronicle lines t asked told) :
    (t.notices.filter fun notice => notice.severity = .warning) = Line.issueNotices lines := by
  have hissues : (Line.issueNotices lines).filter (fun notice => notice.severity = .warning) =
      Line.issueNotices lines :=
    List.filter_eq_self.mpr fun notice hn =>
      decide_eq_true (Line.severity_of_mem_issueNotices hn)
  have htold : told.filter (fun notice => notice.severity = .warning) = [] := by
    refine List.filter_eq_nil_iff.mpr fun notice hn => ?_
    simp [h.severity notice hn]
  rw [h.notices, List.filter_append, hissues, htold, List.append_nil]

end Chronicle

/-- What is noticed of the canvas: nothing if it cannot be sized. -/
def canvasNotices : Calc Size → List Notice
  | .ok canvas => [.canvasSized canvas.width canvas.height]
  | .error _ => []

/-- The notices of a build whose participants are resolved. -/
def followUp (layout : Layout) (participants : List Participant) (interactions : Nat) :
    List Notice :=
  participantNotices participants interactions ++ .interactionsResolved interactions ::
    canvasNotices (canvasSize participants interactions layout)

/-- What follows the warnings is of interest for debugging only. -/
theorem severity_of_mem_followUp {participants : List Participant} {interactions : Nat}
    {notice : Notice} (h : notice ∈ followUp layout participants interactions) :
    notice.severity = .debug := by
  rcases List.mem_append.mp h with h | h
  · unfold participantNotices at h
    split at h
    · cases h
    · obtain rfl := List.mem_singleton.mp h
      rfl
  rcases List.mem_cons.mp h with rfl | h
  · rfl
  unfold canvasNotices at h
  split at h
  · obtain rfl := List.mem_singleton.mp h
    rfl
  · cases h

/-- A build that has resolved the participants measures nothing any more. -/
theorem build_events {s s' : σ} {events : List Event} {participants : List Participant}
    {interactions : List Interaction}
    (hps : resolveParticipants measurer layout lines s = ⟨events, s', .ok participants⟩)
    (his : bindLines participants lines = .ok interactions) :
    (build measurer layout lines s).events =
      (Line.issueNotices lines).map .noticed ++ (events ++
        ((Notice.interactionsResolved interactions.length ::
          canvasNotices (canvasSize participants interactions.length layout)).map .noticed)) := by
  rw [build, Run.bind_apply_ok (forM_reportIssue _ _), Run.bind_apply_ok hps,
    Run.bind_apply_ok (resolveInteractions_trace his s'), Line.issueNotices, List.map_map]
  rcases hcanvas : canvasSize participants interactions.length layout with e | canvas
  · rfl
  · rcases hheight : SequenceChart.boxHeight participants layout with e | height <;> rfl

/-- A build that has bound its lines succeeds with what it told, or fails for the
arithmetic. -/
theorem followUp_of_ofParticipants (layout : Layout) {participants : List Participant}
    {interactions : List Interaction} (his : bindLines participants lines = .ok interactions) :
    (∃ d, ofParticipants layout lines participants = .ok d ∧
      followUp layout participants interactions.length = d.closing) ∨
    ∃ e, ofParticipants layout lines participants = .error (.arithmetic e) := by
  rw [ofParticipants_of_bindLines his]
  rcases hcanvas : canvasSize participants interactions.length layout with e | canvas
  · exact .inr ⟨e, rfl⟩
  rcases hheight : SequenceChart.boxHeight participants layout with e | height
  · exact .inr ⟨e, rfl⟩
  · refine .inl ⟨_, rfl, ?_⟩
    simp only [followUp, hcanvas]
    rfl

/-- A build leaves a chronicle, whether it succeeds or not. -/
theorem chronicle_build (hquiet : measurer.Quiet) (hnamed : Line.Named lines) (s : σ) :
    ∃ asked told, Chronicle lines (build measurer layout lines s) asked told := by
  obtain ⟨asked, hasked, ⟨s', fault, hps⟩ | ⟨s', ps, hps⟩⟩ :=
    resolveParticipants_trace hquiet layout lines s
  · -- nothing follows a pass that fails
    refine ⟨asked, [], ?_, hasked, by simp, fun d h => ?_, fun _ _ _ => rfl⟩
    · rw [build, Run.bind_apply_ok (forM_reportIssue _ _), Run.bind_apply_error hps]
      simp [Line.issueNotices]
    · rw [build_result, hps] at h
      cases h
  -- the participants come from the same lines, so the second pass gets through
  obtain ⟨is, his⟩ := exists_bindLines hnamed (congrArg Trace.result hps)
  have hresult : (build measurer layout lines s).result = ofParticipants layout lines ps := by
    rw [build_result, hps]
    rfl
  refine ⟨asked, followUp layout ps is.length, ?_, hasked, fun _ => severity_of_mem_followUp,
    fun d h => ?_, fun fault h hfault => ?_⟩
  · rw [build_events hps his, ← length_bindLines his]
    simp [followUp]
  · rcases followUp_of_ofParticipants layout his with ⟨d', hd', htold⟩ | ⟨e, he⟩
    · obtain rfl := Except.ok.inj (hd'.symm.trans (hresult.symm.trans h))
      exact htold
    · cases he.symm.trans (hresult.symm.trans h)
  · rcases followUp_of_ofParticipants layout his with ⟨d', hd', -⟩ | ⟨e, he⟩
    · cases hd'.symm.trans (hresult.symm.trans h)
    · exact absurd (Except.error.inj (h.symm.trans (hresult.trans he))) (hfault e)

/-- **The trace of a build.**

Let the measurer give no notices.  A build of a text or of lines first warns of
every reported line, once and in document order, with its number and its
trimmed text; then it measures; and when it is done it gives the notices
`Diagram.closing`.  A build that fails to measure has given all its warnings
and gives no notice after them. -/
theorem chronicle_of_source (hquiet : measurer.Quiet) (layout : Layout) (s : σ) :
    (∀ texts, ∃ asked told,
      Chronicle (Line.classifyAll texts) (ofLines measurer layout texts s) asked told) ∧
    (∀ source, ∃ asked told,
      Chronicle (Line.classifyAll (Text.splitLines source)) (ofText measurer layout source s)
        asked told) ∧
    (∀ texts, ((ofLines measurer layout texts s).notices.filter fun notice =>
      notice.severity = .warning) = Line.issueNotices (Line.classifyAll texts)) := by
  have chronicle : ∀ texts, ∃ asked told,
      Chronicle (Line.classifyAll texts) (ofLines measurer layout texts s) asked told :=
    fun texts => chronicle_build hquiet (Line.named_classifyAll texts) s
  refine ⟨chronicle, fun source => chronicle _, fun texts => ?_⟩
  obtain ⟨asked, told, h⟩ := chronicle texts
  exact h.warnings

/-- `C` is refused, and the line after it is warned of all the same. -/
theorem chronicle_of_refused :
    (ofText (.ofFunction (refusing "C")) {} "A -> B\n?? \nC -> A\n:colour red" ()).result =
        .error (.diagram (.unmeasurable "C" "no glyph")) ∧
      (ofText (.ofFunction (refusing "C")) {} "A -> B\n?? \nC -> A\n:colour red" ()).notices =
        [.ignoredLine 1 "??", .ignoredLine 3 ":colour red"] := by
  have hresult : (ofText (.ofFunction (refusing "C")) {} "A -> B\n?? \nC -> A\n:colour red"
      ()).result = .error (.diagram (.unmeasurable "C" "no glyph")) := by decide +kernel
  obtain ⟨asked, told, h⟩ := (chronicle_of_source (Measurer.quiet_ofFunction (refusing "C"))
    {} ()).2.1 "A -> B\n?? \nC -> A\n:colour red"
  refine ⟨hresult, h.notices.trans ?_⟩
  rw [h.broken _ hresult (by simp), List.append_nil]
  decide +kernel

end Diagram

end SequenceChart
