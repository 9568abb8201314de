/-
SequenceChart/Proofs/Reordering.lean

The lines of a source in another order.

A source whose lines are put in another order gives another chart: participants
stand elsewhere, spans and directions change.  What stays is how much room the
chart needs (`Diagram.sameSize_of_ofLines`).  A line is classified by itself, so
the payloads of the interaction lines are the same ones in another order
(`Line.payloads_perm`), and so are the distinct names
(`Line.firstMentions_perm`).  A label depends on the name alone and, in its
height, on all names together (`label_eq_of_name_eq`); and the canvas is
calculated from the labels and the number of interactions by sums, in which the
order does not count.
-/
import Mathlib.Algebra.BigOperators.Group.List.Basic
import SequenceChart.Proofs.Interleaving
import SequenceChart.Proofs.Label
import SequenceChart.Proofs.Stacking

namespace SequenceChart

open Line

variable {σ : Type} {measurer : Measurer σ} {layout : Layout}

/-! ### First occurrences -/

/-- A list in another order has the same elements, so their first occurrences
are the same but for the order too. -/
theorem FirstOccurrence.eraseDups_perm {α : Type*} [BEq α] [LawfulBEq α] {l l' : List α}
    (h : l.Perm l') : l.eraseDups.Perm l'.eraseDups := by
  rw [List.perm_ext_iff_of_nodup (nodup_eraseDups l) (nodup_eraseDups l')]
  intro x
  rw [List.mem_eraseDups, List.mem_eraseDups, h.mem_iff]

/-! ### Lines -/

namespace Line

variable {texts texts' : List String}

/-- The payloads of a source, each of them read off its own line. -/
theorem payloads_classifyAll (texts : List String) :
    payloads (classifyAll texts) =
      ((texts.map fun text => classify text).filter isInteraction).map payload := by
  have hpayload : ∀ x : String × Nat, (classify x.1 x.2).payload = (classify x.1).payload := by
    intro x
    rw [classify_number]
    rfl
  have hclassify : classifyAll texts = texts.zipIdx.map fun x => classify x.1 x.2 := rfl
  have hfilter : texts.zipIdx.filter (isInteraction ∘ fun x => classify x.1 x.2) =
      texts.zipIdx.filter ((isInteraction ∘ fun text => classify text) ∘ Prod.fst) :=
    List.filter_congr fun x _ => isInteraction_classify x.1 x.2
  -- the numbers come from the places, which are taken along and dropped again
  conv_rhs => rw [← List.zipIdx_map_fst 0 texts, List.map_map, List.filter_map, List.map_map]
  rw [payloads, interactions, hclassify, List.filter_map, List.map_map, hfilter]
  exact List.map_congr_left fun x _ => hpayload x

theorem payloads_perm (h : texts.Perm texts') :
    (payloads (classifyAll texts)).Perm (payloads (classifyAll texts')) := by
  rw [payloads_classifyAll, payloads_classifyAll]
  exact ((h.map _).filter _).map _

theorem endpointNames_eq_flatMap (lines : List Line) :
    endpointNames lines =
      (payloads lines).flatMap fun payload => payload.sender.toList ++ payload.receiver.toList := by
  rw [endpointNames, payloads, List.flatMap_map]
  rfl

/-- Reordered lines mention the same names. -/
theorem firstMentions_perm (h : texts.Perm texts') :
    (firstMentions (classifyAll texts)).Perm (firstMentions (classifyAll texts')) := by
  rw [firstMentions, firstMentions, endpointNames_eq_flatMap, endpointNames_eq_flatMap]
  exact FirstOccurrence.eraseDups_perm ((payloads_perm h).flatMap_right _)

end Line

/-! ### Labels -/

/-- The name of a participant with the size of its label. -/
def Participant.label (p : Participant) : String × Quantity × Quantity :=
  (p.name, p.labelWidth, p.labelHeight)

/-- Lists of participants with distinct names that are the same but for their
order have the same labels, if a label goes with its name. -/
theorem label_perm {ps qs : List Participant} (hps : (ps.map Participant.name).Nodup)
    (hnames : (ps.map Participant.name).Perm (qs.map Participant.name))
    (h : ∀ p ∈ ps, ∀ q ∈ qs, p.name = q.name → p.label = q.label) :
    (ps.map Participant.label).Perm (qs.map Participant.label) := by
  -- the label of a name, as the first list has it
  let labelOf (name : String) : Option (String × Quantity × Quantity) :=
    (ps.find? fun p => p.name = name).map Participant.label
  have hleft : (ps.map Participant.name).filterMap labelOf = ps.map Participant.label := by
    rw [List.filterMap_map, ← List.filterMap_eq_map]
    refine List.filterMap_congr fun p hp => ?_
    simp [labelOf, find?_name_eq_some hps hp]
  have hright : (qs.map Participant.name).filterMap labelOf = qs.map Participant.label := by
    rw [List.filterMap_map, ← List.filterMap_eq_map]
    refine List.filterMap_congr fun q hq => ?_
    obtain ⟨p, hp, hname⟩ := List.mem_map.mp (hnames.mem_iff.mpr (List.mem_map_of_mem hq))
    have hfind := find?_name_eq_some hps hp
    rw [hname] at hfind
    simp [labelOf, hfind, h p hp q hq hname]
  rw [← hleft, ← hright]
  exact hnames.filterMap labelOf

section

variable {lines lines' : List Line} {ps qs : List Participant} {s s' : σ}
  (hpure : measurer.Pure) (hm : measurer.IsInt)
  (hnames : (Line.firstMentions lines).Perm (Line.firstMentions lines'))
  (hps : (resolveParticipants measurer layout lines s).result = .ok ps)
  (hqs : (resolveParticipants measurer layout lines' s').result = .ok qs)
include hpure hm hnames hps hqs

/-- The label of a name is the same in two charts of the same names. -/
theorem label_eq_of_name_eq {p q : Participant} (hp : p ∈ ps) (hq : q ∈ qs)
    (h : p.name = q.name) : p.label = q.label := by
  obtain ⟨height, hheight, hgreatest⟩ := hpure.highest_of_resolveParticipants hps hm
  obtain ⟨height', hheight', hgreatest'⟩ := hpure.highest_of_resolveParticipants hqs hm
  -- both labels are measured for the same name
  have hwidth : p.labelWidth = q.labelWidth := by
    obtain ⟨_, hanswer⟩ := answers_of_resolveParticipants hps p hp
    obtain ⟨_, hanswer'⟩ := answers_of_resolveParticipants hqs q hq
    rw [← h] at hanswer'
    exact congrArg Size.width (hpure.answers_unique hanswer hanswer')
  -- the greatest height does not depend on the order of the names
  have hsame : height = height' := by
    have hgreatest := hgreatest (List.ne_nil_of_mem hp)
    have hgreatest' := hgreatest' (List.ne_nil_of_mem hq)
    simp only [hnames.mem_iff] at hgreatest
    exact hgreatest.unique hgreatest'
  rw [Participant.label, Participant.label, h, hwidth, hheight p hp, hheight' q hq, hsame]

/-- Reordered lines give the same labels. -/
theorem label_perm_of_resolveParticipants :
    (ps.map Participant.label).Perm (qs.map Participant.label) := by
  refine label_perm (records_of_resolveParticipants hps).names_nodup ?_ fun p hp q hq =>
    label_eq_of_name_eq hpure hm hnames hps hqs hp hq
  rw [map_name_of_resolveParticipants hps, map_name_of_resolveParticipants hqs]
  exact hnames

end

/-! ### The canvas -/

section

variable {ps qs : List Participant}
  (hlabels : (ps.map Participant.label).Perm (qs.map Participant.label))
include hlabels

theorem length_eq_of_label_perm : ps.length = qs.length := by
  simpa using hlabels.length_eq

/-- Labels in another order take as much room side by side. -/
theorem canvasWidth_eq_of_label_perm (hl : layout.IsInt) (hps : ∀ p ∈ ps, p.IsInt)
    (hqs : ∀ q ∈ qs, q.IsInt) : canvasWidth ps layout = canvasWidth qs layout := by
  have hsum : (ps.map fun p => p.labelWidth.toInt).sum =
      (qs.map fun q => q.labelWidth.toInt).sum := by
    have hwidths := (hlabels.map fun label => label.2.1.toInt).sum_eq
    rwa [List.map_map, List.map_map] at hwidths
  rw [canvasWidth_isInt hl hps, canvasWidth_isInt hl hqs, hsum, length_eq_of_label_perm hlabels]

end

section

variable {lines lines' : List Line} {ps qs : List Participant} {s s' : σ}
  (hl : layout.IsInt) (hm : measurer.IsInt)
  (hlabels : (ps.map Participant.label).Perm (qs.map Participant.label))
  (hps : (resolveParticipants measurer layout lines s).result = .ok ps)
  (hqs : (resolveParticipants measurer layout lines' s').result = .ok qs)
include hl hm hlabels hps hqs

/-- The height of the boxes does not depend on their order. -/
theorem boxHeight_eq_of_label_perm : boxHeight ps layout = boxHeight qs layout := by
  obtain ⟨height, hheight, hnone, hsome⟩ := boxHeight_of_resolveParticipants hl hm hps
  obtain ⟨height', hheight', hnone', hsome'⟩ := boxHeight_of_resolveParticipants hl hm hqs
  have hlength := length_eq_of_label_perm hlabels
  rw [hheight, hheight']
  cases ps with
  | nil => rw [hnone rfl, hnone' (List.length_eq_zero_iff.mp hlength.symm)]
  | cons p ps =>
      -- any label tells the height, and the other chart has it too
      have hmem : p.label ∈ qs.map Participant.label := hlabels.mem_iff.mp (by simp)
      obtain ⟨q, hq, hlabel⟩ := List.mem_map.mp hmem
      have hsame : q.labelHeight = p.labelHeight := congrArg (fun label => label.2.2) hlabel
      rw [(hsome p (by simp)).2, (hsome' q hq).2, hsame]

/-- The size of the canvas does not depend on the order of the boxes. -/
theorem canvasSize_eq_of_label_perm (interactions : Nat) :
    canvasSize ps interactions layout = canvasSize qs interactions layout := by
  have hint := (inRow_resolveParticipants hl hm hps).1
  have hint' := (inRow_resolveParticipants hl hm hqs).1
  rw [canvasSize, canvasSize, canvasWidth_eq_of_label_perm hlabels hl hint hint', canvasHeight,
    canvasHeight, boxHeight_eq_of_label_perm hl hm hlabels hps hqs]

end

/-! ### Built diagrams -/

namespace Diagram

/-- The diagrams need the same room, for the same labels and as many
interactions. -/
structure SameSize (d e : Diagram) : Prop where
  canvas : d.canvas = e.canvas
  boxHeight : d.boxHeight = e.boxHeight
  interactions : d.interactions.length = e.interactions.length
  labels : (d.participants.map Participant.label).Perm (e.participants.map Participant.label)

/-- **The order of the lines does not count for the size.**  Two charts in whole
numbers that are read from the same lines in different orders have canvases of
one size, boxes of one height, as many interactions, and the same labels. -/
theorem sameSize_of_ofLines (hpure : measurer.Pure) (hl : layout.IsInt) (hm : measurer.IsInt)
    {texts texts' : List String} (hperm : texts.Perm texts') {s s' : σ} {d e : Diagram}
    (hd : (ofLines measurer layout texts s).result = .ok d)
    (he : (ofLines measurer layout texts' s').result = .ok e) : d.SameSize e := by
  obtain ⟨_, hps, his, hcanvas, hbox, -, -, -⟩ := build_result_ok hd
  obtain ⟨_, hqs, hjs, hcanvas', hbox', -, -, -⟩ := build_result_ok he
  -- both dimensions are functions of the labels and of the number of interactions
  have hlabels := label_perm_of_resolveParticipants hpure hm (firstMentions_perm hperm) hps hqs
  have hlength : d.interactions.length = e.interactions.length := by
    rw [length_bindLines his, length_bindLines hjs]
    simpa [payloads] using (payloads_perm hperm).length_eq
  rw [canvasSize_eq_of_label_perm hl hm hlabels hps hqs, hlength, hcanvas'] at hcanvas
  rw [boxHeight_eq_of_label_perm hl hm hlabels hps hqs, hbox'] at hbox
  exact
    { canvas := (Except.ok.inj hcanvas).symm
      boxHeight := (Except.ok.inj hbox).symm
      interactions := hlength
      labels := hlabels }

/-- From the last line to the first: other places and spans, the same room. -/
theorem sameSize_of_ofLines_reversed :
    let texts := ["Ada -> B: x", "# note", "Cy -> Ada", "none", "B -> B"]
    ∃ d e : Diagram, (ofLines (.fixedWidth 10 20) {} texts ()).result = .ok d ∧
      (ofLines (.fixedWidth 10 20) {} texts.reverse ()).result = .ok e ∧
      d.participants.map Participant.name = ["Ada", "B", "Cy"] ∧
      e.participants.map Participant.name = ["B", "Cy", "Ada"] ∧ d.SameSize e := by
  intro texts
  have hnames : (ofLines (.fixedWidth 10 20) {} texts ()).result.map
      (fun d => d.participants.map Participant.name) = .ok ["Ada", "B", "Cy"] := by
    decide +kernel
  have hnames' : (ofLines (.fixedWidth 10 20) {} texts.reverse ()).result.map
      (fun e => e.participants.map Participant.name) = .ok ["B", "Cy", "Ada"] := by
    decide +kernel
  obtain ⟨d, hd, hnames⟩ := map_eq_ok.mp hnames
  obtain ⟨e, he, hnames'⟩ := map_eq_ok.mp hnames'
  exact ⟨d, e, hd, he, hnames, hnames',
    sameSize_of_ofLines (Measurer.pure_ofFunction _) Layout.isInt_default
      (Measurer.isInt_fixedWidth 10 20) (List.reverse_perm texts).symm hd he⟩

end Diagram

end SequenceChart
