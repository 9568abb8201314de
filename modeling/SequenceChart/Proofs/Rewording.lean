/-
SequenceChart/Proofs/Rewording.lean

What a message says does not matter to the chart, but how long it is may.

Two sources whose interaction lines run between the same names and agree in
having a message or not are rewordings of each other, if the messages that a
participant sends to itself have equal lengths as well.  Only of these the
drawing asks how much room they take.  The two sources then fail alike, or give
diagrams of one geometry, and drawings that nothing tells apart once the
labels of the messages are erased (`Diagram.rewording_independent`).

The two builds are followed side by side.  The pass over the participants reads
no message, so it is one and the same run; the interactions agree row by row,
and reworded diagrams are drawn alike (`Diagram.Reworded.concur_draw`).  That the
messages are what is erased is said by `Diagram.textsOf_bareTags_draw`.
-/
import SequenceChart.Proofs.Interleaving
import SequenceChart.Proofs.Wording

namespace SequenceChart

open Markup

variable {σ : Type} {measurer : Measurer σ} {layout : Layout}

/-! ### Reworded lines -/

/-- Two interaction lines are of one kind and run between the same names, and if
these are one name, their messages have one length. -/
structure Line.Reworded (line line' : Line) : Prop where
  kind : line.kind = line'.kind
  sender : line.sender = line'.sender
  receiver : line.receiver = line'.receiver
  length : line.sender = line.receiver →
    line.message.map String.length = line'.message.map String.length

instance (line line' : Line) : Decidable (line.Reworded line') :=
  decidable_of_iff (line.kind = line'.kind ∧ line.sender = line'.sender ∧
      line.receiver = line'.receiver ∧ (line.sender = line.receiver →
        line.message.map String.length = line'.message.map String.length))
    ⟨fun ⟨hkind, hsender, hreceiver, hlength⟩ => ⟨hkind, hsender, hreceiver, hlength⟩,
      fun h => ⟨h.kind, h.sender, h.receiver, h.length⟩⟩

section

variable {lines lines' : List Line}

/-- The pass over the participants reads no message. -/
theorem resolveParticipants_reworded
    (h : List.Forall₂ Line.Reworded (Line.interactions lines) (Line.interactions lines')) :
    resolveParticipants measurer layout lines = resolveParticipants measurer layout lines' :=
  resolveParticipants_congr_names <| map_eq_map_iff_forall₂.mpr <| h.imp fun _ _ hline => by
    rw [hline.sender, hline.receiver]

/-- A line that was read has a label if its kind says so. -/
theorem Line.isSome_label {text : String} {number : Int}
    (hkind : (classify text number).isInteraction) :
    ((classify text number).message.bind nonempty?).isSome =
      decide ((classify text number).kind = .interactionWithMessage) := by
  obtain ⟨parts, hcarries⟩ := exists_carries hkind
  rw [hcarries.kind, hcarries.message]
  by_cases hempty : parts.message = []
  · simp [hempty]
  · have hne : String.ofList parts.message ≠ "" := fun h =>
      hempty (by simpa using congrArg String.toList h)
    simp [hempty, hne, nonempty?]

/-- Reworded lines are bound to reworded interactions.  A loop runs from a name
to itself, for the names of participants are told apart by their indices. -/
theorem reworded_bindLine {ps : List Participant} {ms : List Mention} (hps : Records ps ms)
    {text text' : String} {number number' : Int} {row : Nat} {i j : Interaction}
    (hkind : (Line.classify text number).isInteraction)
    (hkind' : (Line.classify text' number').isInteraction)
    (h : (Line.classify text number).Reworded (Line.classify text' number'))
    (hi : bindLine ps (Line.classify text number) row = .ok i)
    (hj : bindLine ps (Line.classify text' number') row = .ok j) : i.Reworded j := by
  have hmessage := message_bindLine hkind hi
  have hmessage' := message_bindLine hkind' hj
  refine ⟨?_, ?_, fun hloop => ?_⟩
  -- both ends are looked up by the same names
  · obtain ⟨sender, receiver, hs, hr, rfl⟩ := bindLine_eq_ok.mp hi
    obtain ⟨sender', receiver', hs', hr', rfl⟩ := bindLine_eq_ok.mp hj
    obtain rfl := bindEndpoint_unique (h.sender ▸ hs) hs'
    obtain rfl := bindEndpoint_unique (h.receiver ▸ hr) hr'
    rfl
  · rw [Interaction.label?, Interaction.label?, ← hmessage, ← hmessage', Line.isSome_label hkind,
      Line.isSome_label hkind', h.kind]
  -- a loop has one index at both ends, hence one name, and then the lengths agree
  · obtain ⟨⟨hs, hsname⟩, ⟨hr, hrname⟩, -, hdirection⟩ := endpoints_of_bindLine hi
    have hindex := Direction.between_eq_loop.mp (hdirection.symm.trans hloop)
    have hlength := h.length (by rw [hsname, hrname, hps.eq_of_index_eq hs hr hindex])
    rw [hmessage, hmessage'] at hlength
    rw [← Option.getD_map String.length, ← Option.getD_map String.length, hlength]

theorem reworded_bindLines {texts texts' : List String} {ps : List Participant}
    {ms : List Mention} (hps : Records ps ms) {is js : List Interaction}
    (h : List.Forall₂ Line.Reworded (Line.interactions (Line.classifyAll texts))
      (Line.interactions (Line.classifyAll texts')))
    (hi : bindLines ps (Line.classifyAll texts) = .ok is)
    (hj : bindLines ps (Line.classifyAll texts') = .ok js) :
    List.Forall₂ Interaction.Reworded is js := by
  refine forall₂_of_bindLines h hi hj ?_
  intro line hline line' hline' hreworded row i j hbound hbound'
  obtain ⟨text, number, rfl, hkind⟩ := exists_classify_of_mem hline
  obtain ⟨text', number', rfl, hkind'⟩ := exists_classify_of_mem hline'
  exact reworded_bindLine hps hkind hkind' hreworded hbound hbound'

end

/-! ### Built diagrams -/

namespace Diagram

variable {texts texts' : List String}

/-- With the same participants, what is left to calculate is worded differently
at most. -/
theorem concur_ofParticipants
    (hheader : Header.collect (Line.classifyAll texts) = Header.collect (Line.classifyAll texts'))
    {ps : List Participant} {is js : List Interaction}
    (hrows : List.Forall₂ Interaction.Reworded is js)
    (hi : bindLines ps (Line.classifyAll texts) = .ok is)
    (hj : bindLines ps (Line.classifyAll texts') = .ok js) :
    Concur Diagram.Reworded (ofParticipants layout (Line.classifyAll texts) ps)
      (ofParticipants layout (Line.classifyAll texts') ps) := by
  rw [ofParticipants_of_bindLines hi, ofParticipants_of_bindLines hj, hrows.length_eq]
  refine .bind_same fun canvas _ => .bind_same fun height _ => .ok ?_
  exact ⟨rfl, hrows, rfl, rfl, hheader, rfl⟩

/-- Builds of reworded lines come out alike. -/
theorem concur_ofLines (hpure : measurer.Pure)
    (hheader : Header.collect (Line.classifyAll texts) = Header.collect (Line.classifyAll texts'))
    (hlines : List.Forall₂ Line.Reworded (Line.interactions (Line.classifyAll texts))
      (Line.interactions (Line.classifyAll texts'))) (s s' : σ) :
    Concur Diagram.Reworded (ofLines measurer layout texts s).result
      (ofLines measurer layout texts' s').result := by
  have hresolve : (resolveParticipants measurer layout (Line.classifyAll texts') s').result =
      (resolveParticipants measurer layout (Line.classifyAll texts) s).result := by
    rw [resolveParticipants_reworded hlines]
    exact steady_resolveParticipants hpure _ s' s
  rw [ofLines, ofLines, build_result, build_result, hresolve]
  refine .bind_same fun ps hps => ?_
  -- neither build misses a participant of the other's
  obtain ⟨is, hi⟩ := exists_bindLines (Line.named_classifyAll texts) hps
  obtain ⟨js, hj⟩ := exists_bindLines (Line.named_classifyAll texts') (hresolve.trans hps)
  have hrows := reworded_bindLines (records_of_resolveParticipants hps) hlines hi hj
  exact concur_ofParticipants hheader hrows hi hj

/-- The diagrams place and connect the same things. -/
structure SameGeometry (d e : Diagram) : Prop where
  participants : d.participants = e.participants
  interactions : d.interactions.map Interaction.unlabelled =
    e.interactions.map Interaction.unlabelled
  canvas : d.canvas = e.canvas
  boxHeight : d.boxHeight = e.boxHeight
  header : d.header = e.header
  layout : d.layout = e.layout

/-- Rewording keeps the geometry. -/
theorem Reworded.sameGeometry {d e : Diagram} (h : d.Reworded e) : d.SameGeometry e where
  participants := h.participants
  interactions := map_eq_map_iff_forall₂.mpr (h.interactions.imp fun _ _ hij => hij.unlabelled)
  canvas := h.canvas
  boxHeight := h.boxHeight
  header := h.header
  layout := h.layout

/-- **The wording of a message is not in the geometry.**  Let two sources have
equal headers, and interaction lines that agree, pair by pair, in their kinds
and names and, where a participant sends to itself, in the lengths of their
messages.  For every pure measurer, both fail with the same fault or give
diagrams that differ at most in the messages, the line numbers and the issues;
and whatever the appearance, both renderings fail alike, or give texts that are
one text once the labels of the messages are erased. -/
theorem rewording_independent (hpure : measurer.Pure)
    (hheader : Header.collect (Line.classifyAll texts) = Header.collect (Line.classifyAll texts'))
    (hlines : List.Forall₂ Line.Reworded (Line.interactions (Line.classifyAll texts))
      (Line.interactions (Line.classifyAll texts'))) (s s' : σ) :
    Concur SameGeometry (ofLines measurer layout texts s).result
        (ofLines measurer layout texts' s').result ∧
      ∀ appearance, Concur SameErased (renderLines measurer layout appearance texts s).result
        (renderLines measurer layout appearance texts' s').result := by
  have h : Concur Reworded (ofLines measurer layout texts s).result
      (ofLines measurer layout texts' s').result := concur_ofLines hpure hheader hlines s s'
  refine ⟨h.mono fun d e => Reworded.sameGeometry, fun appearance => ?_⟩
  rw [renderLines_result, renderLines_result]
  exact h.bind fun d e hde => hde.concur_picture appearance

/-- Other words, a comment in front, and a loop with a message of one length. -/
theorem rewording_independent_greeting :
    let texts := ["A -> B: hello", "B -> B: abc"]
    let texts' := ["# note", "A -> B: <text> & more", "B -> B: xyz"]
    ∃ d e : Diagram, (ofLines (.fixedWidth 10 20) {} texts ()).result = .ok d ∧
      (ofLines (.fixedWidth 10 20) {} texts' ()).result = .ok e ∧
      d.labels = ["hello", "abc", "A", "B"] ∧ e.labels = ["<text> & more", "xyz", "A", "B"] ∧
      d.SameGeometry e ∧
      ∀ appearance, Concur SameErased
        (renderLines (.fixedWidth 10 20) {} appearance texts ()).result
        (renderLines (.fixedWidth 10 20) {} appearance texts' ()).result := by
  intro texts texts'
  have hlabels : (ofLines (.fixedWidth 10 20) {} texts ()).result.map Diagram.labels =
      .ok ["hello", "abc", "A", "B"] := by
    decide +kernel
  have hlabels' : (ofLines (.fixedWidth 10 20) {} texts' ()).result.map Diagram.labels =
      .ok ["<text> & more", "xyz", "A", "B"] := by
    decide +kernel
  obtain ⟨d, hd, hlabels⟩ := map_eq_ok.mp hlabels
  obtain ⟨e, he, hlabels'⟩ := map_eq_ok.mp hlabels'
  have hpure : (Measurer.fixedWidth 10 20 : Measurer Unit).Pure := Measurer.pure_ofFunction _
  have hheader : Header.collect (Line.classifyAll texts) =
      Header.collect (Line.classifyAll texts') := by
    decide +kernel
  have hlines : List.Forall₂ Line.Reworded (Line.interactions (Line.classifyAll texts))
      (Line.interactions (Line.classifyAll texts')) := by
    decide +kernel
  obtain ⟨hsame, hdrawn⟩ := rewording_independent hpure hheader hlines () ()
  refine ⟨d, e, hd, he, hlabels, hlabels', ?_, hdrawn⟩
  rw [hd, he] at hsame
  cases hsame with
  | ok h => exact h

end Diagram

end SequenceChart
