/-
SequenceChart/Proofs/Growth.lean

How much room more lines take.

A chart that is continued by more lines never needs less room than before
(`Diagram.Grows`).  Its canvas gets wider with every participant that the new
lines bring in, and with nothing else; it gets higher with every interaction
among them, by a row at least, and with nothing else; and its boxes get higher
if a new label is the tallest.

The width is followed label by label: one more label takes its width, the
padding on both sides and, unless it is the first, a gap
(`Layout.room_concat`).  The height of the boxes depends on the set of names
alone, and more names never make them lower (`boxHeight_le_of_subset`); if no
name is new, this holds in both directions.
-/
import Mathlib.Data.List.Infix
import SequenceChart.Proofs.Reordering

namespace SequenceChart

open Quantity

variable {σ : Type} {measurer : Measurer σ} {layout : Layout}

/-- Whether every text that can be measured has a whole width of one at least and
a whole height that is not negative. -/
structure Measurer.Solid (measurer : Measurer σ) : Prop where
  isInt : measurer.IsInt
  width : ∀ text fontSize s size, (measurer text fontSize s).result = .ok size →
    1 ≤ size.width.toInt
  height : ∀ text fontSize s size, (measurer text fontSize s).result = .ok size →
    0 ≤ size.height.toInt

/-- Answers in whole numbers that are at least one wide and not negatively high are
solid. -/
theorem Measurer.solid_ofFunction {width height : String → Int} (hwidth : ∀ text, 1 ≤ width text)
    (hheight : ∀ text, 0 ≤ height text) :
    (ofFunction fun text _ => .ok ⟨.int (width text), .int (height text)⟩ : Measurer σ).Solid where
  isInt := by
    intro text fontSize s size h
    obtain rfl := Except.ok.inj h
    exact ⟨isInt_int _, isInt_int _⟩
  width := by
    intro text fontSize s size h
    obtain rfl := Except.ok.inj h
    exact hwidth text
  height := by
    intro text fontSize s size h
    obtain rfl := Except.ok.inj h
    exact hheight text

/-- Whether all measures of a layout are integers, a row has some height, and
neither a gap between boxes nor the padding of a label is negative. -/
structure Layout.Roomy (layout : Layout) : Prop where
  isInt : layout.IsInt
  horizontalGap : 0 ≤ layout.horizontalGap.toInt
  labelPadding : 0 ≤ layout.labelPadding.toInt
  verticalGap : 1 ≤ layout.verticalGap.toInt

theorem Layout.roomy_default : ({} : Layout).Roomy where
  isInt := isInt_default
  horizontalGap := by decide
  labelPadding := by decide
  verticalGap := by decide

/-! ### More lines -/

namespace Line

variable {lines more : List Line}

theorem payloads_append (lines more : List Line) :
    payloads (lines ++ more) = payloads lines ++ payloads more := by
  rw [payloads, interactions_append, List.map_append]
  rfl

/-- Lines that are read together say what they say on their own. -/
theorem payloads_classifyAll_append (texts texts' : List String) :
    payloads (classifyAll (texts ++ texts')) =
      payloads (classifyAll texts ++ classifyAll texts') := by
  simp only [payloads_append, payloads_classifyAll, List.map_append, List.filter_append]

/-- The names of more lines are the earlier ones, and then those that are new. -/
theorem firstMentions_append (lines more : List Line) :
    firstMentions (lines ++ more) = firstMentions lines ++
      ((endpointNames more).removeAll (endpointNames lines)).eraseDups := by
  rw [firstMentions, firstMentions, endpointNames, interactions_append, List.flatMap_append,
    List.eraseDups_append]
  rfl

theorem firstMentions_subset_append (lines more : List Line) :
    firstMentions lines ⊆ firstMentions (lines ++ more) := by
  rw [firstMentions_append]
  exact List.subset_append_left _ _

theorem firstMentions_append_of_no_interactions (h : interactions more = []) :
    firstMentions (lines ++ more) = firstMentions lines := by
  rw [firstMentions, firstMentions, endpointNames, endpointNames, interactions_append, h,
    List.append_nil]

/-- There are more names if and only if one of the new lines' is new. -/
theorem length_firstMentions_lt_iff :
    (firstMentions lines).length < (firstMentions (lines ++ more)).length ↔
      ∃ name ∈ firstMentions more, name ∉ firstMentions lines := by
  rw [firstMentions_append, List.length_append, Nat.lt_add_right_iff_pos,
    List.length_pos_iff_exists_mem]
  simp [firstMentions, List.removeAll]

end Line

/-! ### Width -/

/-- The widths of the labels, in whole numbers. -/
def labelWidths (ps : List Participant) : List Int :=
  ps.map fun p => p.labelWidth.toInt

/-- The labels that were there before keep their widths. -/
theorem Keeps.labelWidths_isPrefix {ps qs : List Participant} (h : Keeps ps qs) :
    labelWidths ps <+: labelWidths qs := by
  rw [List.prefix_iff_getElem?]
  intro i hi
  rw [labelWidths, List.length_map] at hi
  obtain ⟨row, height, hq⟩ := h i _ (List.getElem?_eq_getElem hi)
  simp only [labelWidths, List.getElem?_map, hq, List.getElem_map, Option.map_some]

namespace Layout

/-- The width of a canvas for labels of these widths. -/
def room (layout : Layout) (widths : List Int) : Int :=
  2 * layout.padding.toInt + 2 * layout.margin.toInt + widths.sum +
    (widths.length - 1 : Nat) * layout.horizontalGap.toInt +
    (widths.length * 2 : Nat) * layout.labelPadding.toInt

/-- What one more label takes. -/
theorem room_concat (layout : Layout) (widths : List Int) (width : Int) :
    layout.room (widths ++ [width]) = layout.room widths + (width + 2 * layout.labelPadding.toInt +
      if widths = [] then 0 else layout.horizontalGap.toInt) := by
  rcases widths with - | ⟨first, rest⟩
  · simp [room]
    ring
  · simp [room]
    ring

namespace Roomy

/-- Every label takes some room. -/
theorem room_append (hl : layout.Roomy) (widths : List Int) {more : List Int}
    (hmore : ∀ width ∈ more, 1 ≤ width) :
    layout.room widths + more.length ≤ layout.room (widths ++ more) := by
  induction more generalizing widths with
  | nil => simp
  | cons width more ih =>
      have hrest := ih (widths ++ [width]) fun w hw => hmore w (by simp [hw])
      have hwidth := hmore width (by simp)
      have hgap := hl.horizontalGap
      have hpadding := hl.labelPadding
      rw [room_concat, List.append_assoc, List.singleton_append] at hrest
      rw [List.length_cons]
      push_cast
      split at hrest <;> omega

/-- More labels take more room. -/
theorem room_lt_iff (hl : layout.Roomy) {widths more : List Int}
    (hmore : ∀ width ∈ more, 1 ≤ width) :
    layout.room widths < layout.room (widths ++ more) ↔ 0 < more.length := by
  have hle := hl.room_append widths hmore
  constructor
  · intro hlt
    by_contra hnone
    rw [Nat.not_lt, Nat.le_zero, List.length_eq_zero_iff] at hnone
    rw [hnone, List.append_nil] at hlt
    exact Int.lt_irrefl _ hlt
  · omega

end Roomy

end Layout

/-- The width of the canvas is the room that its labels take. -/
theorem canvasWidth_eq_room (hl : layout.IsInt) {ps : List Participant} (hps : ∀ p ∈ ps, p.IsInt) :
    canvasWidth ps layout = .ok (.int (layout.room (labelWidths ps))) := by
  rw [canvasWidth_isInt hl hps, Layout.room, labelWidths, List.length_map]

/-! ### Height -/

namespace Layout

/-- More rows below boxes of another height. -/
theorem rowLevel_add (layout : Layout) (box box' row more : Int) :
    layout.rowLevel box' (row + more) =
      layout.rowLevel box row + (box' - box) + layout.verticalGap.toInt * more := by
  unfold rowLevel
  ring

/-- Below boxes that are not lower, more rows end on the same level only if there
are none and the boxes are as high. -/
theorem Roomy.rowLevel_add_eq_iff (hl : layout.Roomy) {box box' : Int} (hle : box ≤ box')
    (row : Int) (more : Nat) :
    layout.rowLevel box' (row + more) = layout.rowLevel box row ↔ box' = box ∧ more = 0 := by
  rw [rowLevel_add layout box]
  constructor
  · intro hsame
    -- every row has a positive height
    have hnone : more = 0 := by
      by_contra hsome
      have hmore : (0 : Int) < more := Int.natCast_pos.mpr (Nat.pos_of_ne_zero hsome)
      have hadded := Int.mul_pos (Int.lt_of_lt_of_le Int.one_pos hl.verticalGap) hmore
      omega
    rw [hnone, Int.natCast_zero, Int.mul_zero] at hsame
    exact ⟨by omega, hnone⟩
  · rintro ⟨rfl, rfl⟩
    simp

end Layout

/-! ### Resolved participants -/

section

variable {lines lines' : List Line} {ps qs : List Participant} {s s' : σ}
  (hpure : measurer.Pure) (hm : measurer.Solid)
  (hps : (resolveParticipants measurer layout lines s).result = .ok ps)
include hpure hm hps

/-- The sizes of the labels are measured ones. -/
theorem label_bounds {p : Participant} (hp : p ∈ ps) :
    1 ≤ p.labelWidth.toInt ∧ 0 ≤ p.labelHeight.toInt := by
  obtain ⟨height, hheight, hgreatest⟩ := hpure.highest_of_resolveParticipants hps hm.isInt
  obtain ⟨_, s₁, hwidth⟩ := answers_of_resolveParticipants hps p hp
  obtain ⟨name, -, _, s₂, htall⟩ := (hgreatest (List.ne_nil_of_mem hp)).1
  rw [hheight p hp]
  exact ⟨hm.width _ _ _ _ hwidth, hm.height _ _ _ _ htall⟩

/-- The tallest of more names is as tall as any of them. -/
theorem labelHeight_le_of_subset
    (hsub : Line.firstMentions lines ⊆ Line.firstMentions lines')
    (hqs : (resolveParticipants measurer layout lines' s').result = .ok qs) {p q : Participant}
    (hp : p ∈ ps) (hq : q ∈ qs) : p.labelHeight.toInt ≤ q.labelHeight.toInt := by
  obtain ⟨height, hheight, hgreatest⟩ := hpure.highest_of_resolveParticipants hps hm.isInt
  obtain ⟨height', hheight', hgreatest'⟩ := hpure.highest_of_resolveParticipants hqs hm.isInt
  rw [hheight p hp, hheight' q hq]
  refine (hgreatest (List.ne_nil_of_mem hp)).mono (hgreatest' (List.ne_nil_of_mem hq)) ?_
  rintro n ⟨name, hname, width, hanswer⟩
  exact ⟨name, hsub hname, width, hanswer⟩

variable (hl : layout.Roomy)
include hl

/-- In whole numbers boxes have a height, and it is not negative. -/
theorem exists_boxHeight : ∃ height : Int, boxHeight ps layout = .ok (.int height) ∧ 0 ≤ height ∧
    (ps = [] → height = 0) := by
  obtain ⟨height, hheight, hnone, hsome⟩ := boxHeight_of_resolveParticipants hl.isInt hm.isInt hps
  refine ⟨height, hheight, ?_, hnone⟩
  rcases ps with - | ⟨p, ps⟩
  · exact Int.le_of_eq (hnone rfl).symm
  · have hlabel := (label_bounds hpure hm hps (List.mem_cons_self (a := p))).2
    have hpadding := hl.labelPadding
    have := (hsome p List.mem_cons_self).2
    omega

/-- More names never make the boxes lower. -/
theorem boxHeight_le_of_subset
    (hsub : Line.firstMentions lines ⊆ Line.firstMentions lines')
    (hqs : (resolveParticipants measurer layout lines' s').result = .ok qs) {box box' : Int}
    (hbox : boxHeight ps layout = .ok (.int box))
    (hbox' : boxHeight qs layout = .ok (.int box')) : box ≤ box' := by
  rcases ps with - | ⟨p, ps⟩
  · -- without participants there is no box
    obtain rfl := int.inj (Except.ok.inj hbox)
    obtain ⟨height, hheight, hpos, -⟩ := exists_boxHeight hpure hm hqs hl
    obtain rfl := int.inj (Except.ok.inj (hheight.symm.trans hbox'))
    exact hpos
  · have hp : p ∈ p :: ps := List.mem_cons_self
    have hname : p.name ∈ qs.map Participant.name := by
      rw [map_name_of_resolveParticipants hqs]
      apply hsub
      rw [← map_name_of_resolveParticipants hps]
      exact List.mem_map_of_mem hp
    obtain ⟨q, hq, -⟩ := List.mem_map.mp hname
    obtain ⟨_, hheight, -, hsome⟩ := boxHeight_of_resolveParticipants hl.isInt hm.isInt hps
    obtain ⟨_, hheight', -, hsome'⟩ := boxHeight_of_resolveParticipants hl.isInt hm.isInt hqs
    obtain rfl := int.inj (Except.ok.inj (hheight.symm.trans hbox))
    obtain rfl := int.inj (Except.ok.inj (hheight'.symm.trans hbox'))
    have hle := labelHeight_le_of_subset hpure hm hps hsub hqs hp hq
    rw [(hsome p hp).2, (hsome' q hq).2]
    omega

end

section

variable {lines more : List Line} {ps qs : List Participant} {s s' : σ}

/-- The labels that more lines bring in stand behind the earlier ones. -/
theorem exists_labelWidths_append (hpure : measurer.Pure) (hm : measurer.Solid)
    (hps : (resolveParticipants measurer layout lines s).result = .ok ps)
    (hqs : (resolveParticipants measurer layout (lines ++ more) s').result = .ok qs) :
    ∃ rest, labelWidths qs = labelWidths ps ++ rest ∧ (∀ width ∈ rest, 1 ≤ width) ∧
      (0 < rest.length ↔
        ∃ name ∈ Line.firstMentions more, name ∉ Line.firstMentions lines) := by
  obtain ⟨rest, hrest⟩ := (keeps_resolveParticipants hpure hps hqs).labelWidths_isPrefix
  refine ⟨rest, hrest.symm, fun width hwidth => ?_, ?_⟩
  · have hmem : width ∈ labelWidths qs := hrest ▸ List.mem_append_right _ hwidth
    obtain ⟨q, hq, rfl⟩ := List.mem_map.mp hmem
    exact (label_bounds hpure hm hqs hq).1
  · have hlength := congrArg List.length hrest
    rw [← Line.length_firstMentions_lt_iff, ← map_name_of_resolveParticipants hps,
      ← map_name_of_resolveParticipants hqs]
    simp only [labelWidths, List.length_append, List.length_map] at hlength ⊢
    omega

end

/-! ### Built diagrams -/

namespace Diagram

/-- The diagram `e` needs the room of `d`, and room for what the lines `more` add
to `lines`. -/
structure Grows (layout : Layout) (d e : Diagram) (lines more : List Line) : Prop where
  isInt : d.canvas.IsInt ∧ e.canvas.IsInt ∧ d.boxHeight.IsInt ∧ e.boxHeight.IsInt
  width : d.canvas.width.toInt ≤ e.canvas.width.toInt
  /-- Only a participant that is new makes the canvas wider. -/
  wider : d.canvas.width.toInt < e.canvas.width.toInt ↔
    ∃ name ∈ Line.firstMentions more, name ∉ Line.firstMentions lines
  height : d.canvas.height.toInt + layout.verticalGap.toInt * (Line.interactions more).length ≤
    e.canvas.height.toInt
  /-- Only an interaction makes the canvas higher. -/
  sameHeight : e.canvas.height = d.canvas.height ↔ Line.interactions more = []
  boxHeight : d.boxHeight.toInt ≤ e.boxHeight.toInt

section

variable {lines lines' more : List Line} {s s' : σ} {d e : Diagram}

/-- In whole numbers the canvas of a built diagram is as wide as its labels need
and as high as its rows need. -/
theorem canvas_of_build (hl : layout.IsInt) (hm : measurer.IsInt)
    (h : (build measurer layout lines s).result = .ok d) :
    ∃ box : Int, d.boxHeight = .int box ∧
      d.canvas.width = .int (layout.room (labelWidths d.participants)) ∧
      d.canvas.height = .int (layout.rowLevel box (Line.interactions lines).length +
        (layout.padding.toInt + layout.margin.toInt)) := by
  obtain ⟨_, hps, hbound, hcanvas, hbox, -, -, -⟩ := build_result_ok h
  obtain ⟨box, hboxHeight, -⟩ := boxHeight_of_resolveParticipants hl hm hps
  have hint := (inRow_resolveParticipants hl hm hps).1
  rw [canvasSize, canvasWidth_eq_room hl hint, canvasHeight_eq_rowLevel hl hboxHeight,
    length_bindLines hbound] at hcanvas
  rw [← Except.ok.inj hcanvas]
  exact ⟨box, Except.ok.inj (hbox.symm.trans hboxHeight), rfl, rfl⟩

/-- A chart whose lines say what `lines` and `more` say grows from that of
`lines`. -/
theorem grows_of_build (hpure : measurer.Pure) (hl : layout.Roomy) (hm : measurer.Solid)
    (hpayloads : Line.payloads lines' = Line.payloads (lines ++ more))
    (hd : (build measurer layout lines s).result = .ok d)
    (he : (build measurer layout lines' s').result = .ok e) : d.Grows layout e lines more := by
  obtain ⟨_, hps, -, -, hbox, -⟩ := build_result_ok hd
  obtain ⟨_, hqs, -, -, hbox', -⟩ := build_result_ok he
  rw [resolveParticipants_congr hpayloads] at hqs
  obtain ⟨box, hdbox, hdwidth, hdheight⟩ := canvas_of_build hl.isInt hm.isInt hd
  obtain ⟨box', hebox, hewidth, heheight⟩ := canvas_of_build hl.isInt hm.isInt he
  rw [hdbox] at hbox
  rw [hebox] at hbox'
  obtain ⟨rest, hrest, hpos, hnew⟩ := exists_labelWidths_append hpure hm hps hqs
  have hle : box ≤ box' :=
    boxHeight_le_of_subset hpure hm hps hl (Line.firstMentions_subset_append lines more) hqs
      hbox hbox'
  have hrows : (Line.interactions lines').length =
      (Line.interactions lines).length + (Line.interactions more).length := by
    simpa [Line.payloads, Line.interactions_append] using congrArg List.length hpayloads
  rw [hrows, Int.natCast_add] at heheight
  refine
    { isInt := ⟨⟨hdwidth ▸ isInt_int _, hdheight ▸ isInt_int _⟩,
        ⟨hewidth ▸ isInt_int _, heheight ▸ isInt_int _⟩, hdbox ▸ isInt_int _, hebox ▸ isInt_int _⟩
      width := ?_
      wider := ?_
      height := ?_
      sameHeight := ?_
      boxHeight := ?_ }
  · have hroom := hl.room_append (labelWidths d.participants) hpos
    rw [hdwidth, hewidth, hrest, toInt, toInt]
    omega
  · rw [hdwidth, hewidth, hrest]
    exact (hl.room_lt_iff hpos).trans hnew
  · rw [hdheight, heheight, Layout.rowLevel_add layout box, toInt, toInt]
    omega
  · rw [hdheight, heheight, int.injEq, Int.add_left_inj, hl.rowLevel_add_eq_iff hle,
      List.length_eq_zero_iff, and_iff_right_iff_imp]
    intro hnone
    -- without an interaction there is no name, and the boxes are as high as they were
    refine Int.le_antisymm (boxHeight_le_of_subset hpure hm hqs hl ?_ hps hbox' hbox) hle
    rw [Line.firstMentions_append_of_no_interactions hnone]
    exact List.Subset.refl _
  · rw [hdbox, hebox]
    exact hle

end

/-- **More lines need more room, and only where they draw more.**  A canvas gets
wider exactly by new names and higher exactly by new interactions, which take a
row each; nothing that is added makes the canvas or its boxes smaller. -/
theorem grows_of_ofLines (hpure : measurer.Pure) (hl : layout.Roomy) (hm : measurer.Solid)
    {texts more : List String} {s s' : σ} {d e : Diagram}
    (hd : (ofLines measurer layout texts s).result = .ok d)
    (he : (ofLines measurer layout (texts ++ more) s').result = .ok e) :
    d.Grows layout e (Line.classifyAll texts) (Line.classifyAll more) :=
  grows_of_build hpure hl hm (Line.payloads_classifyAll_append texts more) hd he

/-- `Cleo` is new and takes a box and a gap, the two interactions take a row each,
and the comment takes nothing. -/
theorem grows_of_ofLines_cleo :
    let measurer : Measurer Unit :=
      .ofFunction fun text _ => .ok ⟨.int (10 * text.length + 1), .int (text.length + 19)⟩
    ∃ d e : Diagram, (ofLines measurer {} ["A -> B: x"] ()).result = .ok d ∧
      (ofLines measurer {} (["A -> B: x"] ++ ["# note", "B -> Cleo", "A -> A"]) ()).result
        = .ok e ∧
      (d.canvas, d.boxHeight) = (⟨.int 137, .int 140⟩, .int 40) ∧
      (e.canvas, e.boxHeight) = (⟨.int 223, .int 243⟩, .int 43) ∧
      d.Grows {} e (Line.classifyAll ["A -> B: x"])
        (Line.classifyAll ["# note", "B -> Cleo", "A -> A"]) := by
  intro measurer
  have hsize : (ofLines measurer {} ["A -> B: x"] ()).result.map
      (fun d => (d.canvas, d.boxHeight)) = .ok (⟨.int 137, .int 140⟩, .int 40) := by
    decide +kernel
  have hsize' : (ofLines measurer {} (["A -> B: x"] ++ ["# note", "B -> Cleo", "A -> A"])
      ()).result.map (fun e => (e.canvas, e.boxHeight)) =
      .ok (⟨.int 223, .int 243⟩, .int 43) := by
    decide +kernel
  obtain ⟨d, hd, hsize⟩ := map_eq_ok.mp hsize
  obtain ⟨e, he, hsize'⟩ := map_eq_ok.mp hsize'
  have hsolid : measurer.Solid :=
    Measurer.solid_ofFunction (fun text => by omega) (fun text => by omega)
  exact ⟨d, e, hd, he, hsize, hsize',
    grows_of_ofLines (Measurer.pure_ofFunction _) Layout.roomy_default hsolid hd he⟩

end Diagram

end SequenceChart
