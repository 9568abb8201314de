/-
SequenceChart/Proofs/Stacking.lean

The rows of a chart in whole numbers.

Three computations meet in the vertical direction: `Diagram.rowTop` says where
a row starts, `canvasHeight` is a closed formula over the boxes and the number
of rows, and the pass over the participants counts the rows in which each of
them is active.  They agree: the first row starts at the bottom of the
participant boxes, and where one more row would start, the lifelines end and
only the inset is left of the canvas.  If rows have some height, each has a
band of its own in between, and so the active rows of a participant lie on its
lifeline (`Diagram.Stacked`).

All labels of a resolved chart have one height, so the tallest label that the
boxes are made for is the label of every participant
(`tallestLabel_of_forall`).
-/
import Mathlib.Algebra.Order.Ring.Cast
import Mathlib.Algebra.Order.Ring.Rat
import Mathlib.Data.Int.ConditionallyCompleteOrder
import Mathlib.Data.Int.SuccPred
import Mathlib.Order.CompletePartialOrder
import Mathlib.Order.SuccPred.IntervalSucc
import SequenceChart.Drawing
import SequenceChart.Proofs.Piece
import SequenceChart.Proofs.Tiling

namespace SequenceChart

open Quantity

variable {σ : Type} {measurer : Measurer σ} {layout : Layout}

/-! ### Label heights -/

/-- Among labels of one height the tallest has that height. -/
theorem tallestLabel_of_forall {ps : List Participant} {height : Quantity}
    (h : ∀ p ∈ ps, p.labelHeight = height) (hne : ps ≠ []) : tallestLabel ps = height.toInt := by
  cases ps with
  | nil => exact absurd rfl hne
  | cons first rest =>
      -- no later label is taller than the first one
      suffices H : ∀ heights : List Int, (∀ n ∈ heights, n = height.toInt) →
          heights.foldl Max.max height.toInt = height.toInt by
        rw [tallestLabel, h first (by simp)]
        refine H _ fun n hn => ?_
        obtain ⟨p, hp, rfl⟩ := List.mem_map.mp hn
        rw [h p (by simp [hp])]
      intro heights
      induction heights with
      | nil => exact fun _ => rfl
      | cons n heights ih =>
          intro hall
          rw [List.foldl_cons, hall n (by simp), Int.max_self]
          exact ih fun m hm => hall m (by simp [hm])

/-- In whole numbers the boxes are as high as any one label and its padding. -/
theorem boxHeight_of_resolveParticipants (hl : layout.IsInt) (hm : measurer.IsInt)
    {lines : List Line} {ps : List Participant} {s : σ}
    (h : (resolveParticipants measurer layout lines s).result = .ok ps) :
    ∃ height : Int, boxHeight ps layout = .ok (.int height) ∧ (ps = [] → height = 0) ∧
      ∀ p ∈ ps, p.labelHeight.IsInt ∧
        height = p.labelHeight.toInt + 2 * layout.labelPadding.toInt := by
  obtain ⟨hint, -⟩ := inRow_resolveParticipants hl hm h
  obtain ⟨height, hheight⟩ := labelHeight_of_resolveParticipants h
  refine ⟨_, boxHeight_isInt hl hint, fun hnone => if_pos hnone, fun p hp => ?_⟩
  refine ⟨(hint p hp).labelHeight, ?_⟩
  have hsome : ps ≠ [] := List.ne_nil_of_mem hp
  rw [if_neg hsome, tallestLabel_of_forall hheight hsome, hheight p hp]

/-! ### Bands -/

/-- The band of a row, from its top to that of the next row. -/
def rowBand (top : Int → Int) (row : Int) : Set ℚ :=
  Set.Ico (top row : ℚ) (top (row + 1))

section

variable {top : Int → Int}

/-- No two rows share a point if tops go down the canvas. -/
theorem disjoint_rowBand (htop : Monotone top) :
    Pairwise (Function.onFun Disjoint (rowBand top)) := by
  have hcast : Monotone fun row => (top row : ℚ) := fun _ _ h => Int.cast_le.mpr (htop h)
  exact hcast.pairwise_disjoint_on_Ico_succ

theorem rowBand_subset (htop : Monotone top) {first last row : Int} (hfirst : first ≤ row)
    (hlast : row < last) : rowBand top row ⊆ Set.Ico (top first : ℚ) (top last) :=
  Set.Ico_subset_Ico (Int.cast_le.mpr (htop hfirst)) (Int.cast_le.mpr (htop hlast))

end

/-! ### Where rows start -/

namespace Layout

/-- The height at which a row starts in whole numbers, below boxes of the height
`box`. -/
def rowLevel (layout : Layout) (box row : Int) : Int :=
  layout.padding.toInt + layout.margin.toInt + box + row * layout.verticalGap.toInt

theorem rowLevel_zero (layout : Layout) (box : Int) :
    layout.rowLevel box 0 = layout.padding.toInt + layout.margin.toInt + box := by
  simp [rowLevel]

theorem rowLevel_succ (layout : Layout) (box row : Int) :
    layout.rowLevel box (row + 1) = layout.rowLevel box row + layout.verticalGap.toInt := by
  unfold rowLevel
  ring

/-- With a positive gap later rows are further down. -/
theorem monotone_rowLevel (hgap : 0 < layout.verticalGap.toInt) (box : Int) :
    Monotone (layout.rowLevel box) := by
  intro row row' hle
  exact Int.add_le_add_left (Int.mul_le_mul_of_nonneg_right hle (Int.le_of_lt hgap)) _

end Layout

/-- The canvas is as high as the place of one more row, with the inset below. -/
theorem canvasHeight_eq_rowLevel (hl : layout.IsInt) {ps : List Participant} {box : Int}
    (hbox : boxHeight ps layout = .ok (.int box)) (interactions : Nat) :
    canvasHeight ps interactions layout = .ok (.int (layout.rowLevel box interactions +
      (layout.padding.toInt + layout.margin.toInt))) := by
  rw [canvasHeight, hl.frameSize, hbox, (isInt_int _).mul hl.verticalGap]
  show Except.ok (int (_ + box + _)) = _
  rw [Layout.rowLevel, toInt]
  congr 2
  ring

/-! ### Built diagrams -/

/-- The value of an attribute, in a tag that has one of this name. -/
def Markup.Token.attribute? (name : String) : Token → Option String
  | .start _ attributes | .void _ attributes => attributes.lookup name
  | .finish _ | .data _ | .label _ => none

namespace Diagram

/-- The rows of the diagram start at the heights `top` and are stacked without
a gap between the participant boxes and the end of the lifelines. -/
structure Stacked (d : Diagram) (top : Int → Int) : Prop where
  rowTop : ∀ row, d.rowTop row = .ok (.int (top row))
  next : ∀ row, top (row + 1) = top row + d.layout.verticalGap.toInt
  /-- Every box is as high as its label with the padding above and below. -/
  boxHeight : ∀ p ∈ d.participants, p.labelHeight.IsInt ∧
    d.boxHeight = .int (p.labelHeight.toInt + 2 * d.layout.labelPadding.toInt)
  empty : d.participants = [] → d.boxHeight = .int 0
  first : top 0 = d.layout.padding.toInt + d.layout.margin.toInt + d.boxHeight.toInt
  last : d.canvas.height =
    .int (top d.interactions.length + (d.layout.padding.toInt + d.layout.margin.toInt))
  /-- A box that can be drawn goes from the inset to the top of the first row. -/
  box : ∀ p ∈ d.participants, ∀ tokens, Drawing.participantBox d p = .ok tokens →
    ∃ rect rest, tokens = rect :: rest ∧
      rect.attribute? "y" = some (int (d.layout.padding.toInt + d.layout.margin.toInt)).text ∧
      rect.attribute? "height" = some (int (top 0 -
        (d.layout.padding.toInt + d.layout.margin.toInt))).text
  /-- A lifeline that can be drawn goes from the top of the first row to the
  bottom of the last one. -/
  lifeline : ∀ p ∈ d.participants, ∀ tokens, Drawing.lifeline d p = .ok tokens →
    ∃ line, tokens = [line] ∧ line.attribute? "y1" = some (int (top 0)).text ∧
      line.attribute? "y2" = some (int (top d.interactions.length)).text
  disjoint : 0 < d.layout.verticalGap.toInt → Pairwise (Function.onFun Disjoint (rowBand top))
  within : 0 < d.layout.verticalGap.toInt → ∀ row : Int, 0 ≤ row → row < d.interactions.length →
    rowBand top row ⊆ Set.Ico (top 0 : ℚ) (top d.interactions.length)
  active : 0 < d.layout.verticalGap.toInt → ∀ p ∈ d.participants, ∀ row,
    p.firstRow ≤ row → row ≤ p.lastRow → 0 ≤ row ∧ row < d.interactions.length ∧
      rowBand top row ⊆ Set.Ico (top 0 : ℚ) (top d.interactions.length)

section

variable {lines : List Line} {s : σ} {d : Diagram}

/-- In whole numbers every row has a top, whether it is drawn or not. -/
theorem rowTop_eq_rowLevel (hl : d.layout.IsInt) {box : Int} (hbox : d.boxHeight = .int box)
    (row : Int) : d.rowTop row = .ok (.int (d.layout.rowLevel box row)) := by
  rw [rowTop, hl.inset, hbox, (isInt_int row).mul hl.verticalGap]
  rfl

/-- In whole numbers a lifeline is drawn down to where one more row would
start. -/
theorem lifeline_isInt (hl : d.layout.IsInt) {box : Int} (hbox : d.boxHeight = .int box)
    {level : Int} (hcanvas : d.canvas.height = .int (level +
      (d.layout.padding.toInt + d.layout.margin.toInt)))
    {p : Participant} {tokens : List Markup.Token} (h : Drawing.lifeline d p = .ok tokens) :
    ∃ line, tokens = [line] ∧ line.attribute? "y1" = some (int (d.layout.rowLevel box 0)).text ∧
      line.attribute? "y2" = some (int level).text := by
  obtain ⟨-, inset, top, bottom, shape, -, hinset, htop, hbottom, -, rfl, -, hy1, -, hy2⟩ :=
    Drawing.lifeline_eq_ok h
  obtain rfl := Except.ok.inj (hl.inset.symm.trans hinset)
  rw [hbox] at htop
  rw [hcanvas] at hbottom
  obtain rfl := Except.ok.inj htop
  obtain rfl := Except.ok.inj hbottom
  refine ⟨_, rfl, hy1.trans ?_, hy2.trans ?_⟩
  · rw [Layout.rowLevel_zero]
  · rw [Int.add_sub_cancel]

/-- In whole numbers the rows of every built diagram are stacked. -/
theorem stacked_of_build (hl : layout.IsInt) (hm : measurer.IsInt)
    (h : (build measurer layout lines s).result = .ok d) : ∃ top, d.Stacked top := by
  have hcoherent := coherent_of_build h
  obtain ⟨_, hps, -, hcanvas, hheight, -, -, rfl⟩ := build_result_ok h
  obtain ⟨box, hbox, hempty, hlabels⟩ := boxHeight_of_resolveParticipants hl hm hps
  have hboxHeight : d.boxHeight = .int box := Except.ok.inj (hheight.symm.trans hbox)
  have hcanvasHeight : d.canvas.height = .int (d.layout.rowLevel box d.interactions.length +
      (d.layout.padding.toInt + d.layout.margin.toInt)) := by
    simp only [canvasSize, bind_eq_ok] at hcanvas
    obtain ⟨width, -, height, hheight, hsize⟩ := hcanvas
    obtain rfl := congrArg Size.height (Except.ok.inj hsize)
    exact Except.ok.inj (hheight.symm.trans (canvasHeight_eq_rowLevel hl hbox _))
  have hmono : 0 < d.layout.verticalGap.toInt → Monotone (d.layout.rowLevel box) :=
    fun hgap => Layout.monotone_rowLevel hgap box
  refine ⟨d.layout.rowLevel box,
    { rowTop := rowTop_eq_rowLevel hl hboxHeight
      next := d.layout.rowLevel_succ box
      boxHeight := fun p hp => ⟨(hlabels p hp).1, by rw [hboxHeight, (hlabels p hp).2]⟩
      empty := fun hnone => by rw [hboxHeight, hempty hnone]
      first := by rw [hboxHeight, Layout.rowLevel_zero, toInt]
      last := hcanvasHeight
      box := fun p hp tokens hdrawn => ?_
      lifeline := fun p hp tokens hdrawn => lifeline_isInt hl hboxHeight hcanvasHeight hdrawn
      disjoint := fun hgap => disjoint_rowBand (hmono hgap)
      within := fun hgap row hfirst hlast => rowBand_subset (hmono hgap) hfirst hlast
      active := fun hgap p hp row hfirst hlast => ?_ }⟩
  · obtain ⟨inset, -, shape, _, hinset, -, -, -, rfl, hy, hheight, -⟩ :=
      Drawing.participantBox_eq_ok hdrawn
    obtain rfl := Except.ok.inj (hl.inset.symm.trans hinset)
    refine ⟨_, _, rfl, hy, hheight.trans ?_⟩
    rw [hboxHeight, Layout.rowLevel_zero, add_sub_cancel_left]
  · -- the span of a participant is a span of rows that there are
    obtain ⟨hzero, -, hlength⟩ := hcoherent.span p hp
    have hpos : 0 ≤ row := Int.le_trans hzero hfirst
    have hlt : row < d.interactions.length := Int.lt_of_le_of_lt hlast hlength
    exact ⟨hpos, hlt, rowBand_subset (hmono hgap) hpos hlt⟩

end

/-- **The rows tile the canvas from the boxes down**: in a diagram that is read
from a source in whole numbers the rows start at the bottom of the participant
boxes and end, one after the other, where the lifelines do. -/
theorem stacked_of_source (hl : layout.IsInt) (hm : measurer.IsInt) {s : σ} {d : Diagram}
    (h : (∃ source, (ofText measurer layout source s).result = .ok d) ∨
      ∃ texts, (ofLines measurer layout texts s).result = .ok d) :
    d.layout = layout ∧ ∃ top, d.Stacked top := by
  obtain ⟨_, h⟩ := exists_build_of_source h
  exact ⟨(inRow_of_build hl hm h).1, stacked_of_build hl hm h⟩

/-- Two rows of 50 below boxes of 40, with ignored lines in between. -/
theorem stacked_of_source_two : ∃ d : Diagram,
    (ofText (.fixedWidth 10 20) {} "A -> B: x\n# note\nnone\n\nB -> B" ()).result = .ok d ∧
      d.boxHeight = .int 40 ∧ d.canvas.height = .int 190 ∧
      d.rowTop 0 = .ok (.int 65) ∧ d.rowTop 2 = .ok (.int 165) ∧ ∃ top, d.Stacked top := by
  have hheights : (ofText (.fixedWidth 10 20) {} "A -> B: x\n# note\nnone\n\nB -> B" ()).result.map
      (fun d => (d.boxHeight, d.canvas.height, d.rowTop 0, d.rowTop 2)) =
      .ok (.int 40, .int 190, .ok (.int 65), .ok (.int 165)) := by
    decide +kernel
  obtain ⟨d, hd, hheights⟩ := map_eq_ok.mp hheights
  obtain ⟨hbox, hcanvas, hfirst, hlast⟩ : _ ∧ _ ∧ _ ∧ _ := by
    simpa only [Prod.mk.injEq] using hheights
  obtain ⟨-, hstacked⟩ := stacked_of_source Layout.isInt_default
    (Measurer.isInt_fixedWidth 10 20) (.inl ⟨_, hd⟩)
  exact ⟨d, hd, hbox, hcanvas, hfirst, hlast, hstacked⟩

end Diagram

end SequenceChart
