/-
SequenceChart/Proofs/Integral.lean

Charts in whole numbers.

Where the layout and the measured sizes are integers, the arithmetic of a
chart is that of the integers: nothing is rounded, nothing is too large, and
the canvas has the size that the closed formulas say.
-/
import Mathlib.Algebra.Ring.Int.Defs
import SequenceChart.Canvas
import SequenceChart.Proofs.Run

namespace SequenceChart

namespace Quantity

/-! ### Integers among the quantities -/

/-- Whether the quantity is an exact integer. -/
def IsInt (q : Quantity) : Prop :=
  ∃ n, q = int n

/-- The value of an exact integer; binary64 numbers are not told apart. -/
def toInt : Quantity → Int
  | int n => n
  | float _ => 0

theorem isInt_int (n : Int) : IsInt (int n) := ⟨n, rfl⟩

theorem IsInt.eq {q : Quantity} (h : q.IsInt) : q = int q.toInt := by
  obtain ⟨n, rfl⟩ := h
  rfl

theorem IsInt.add {a b : Quantity} (ha : a.IsInt) (hb : b.IsInt) :
    a.add b = .ok (int (a.toInt + b.toInt)) := by
  rw [ha.eq, hb.eq]
  rfl

theorem IsInt.mul {a b : Quantity} (ha : a.IsInt) (hb : b.IsInt) :
    a.mul b = .ok (int (a.toInt * b.toInt)) := by
  rw [ha.eq, hb.eq]
  rfl

theorem max_int (a b : Int) : max (int a) (int b) = int (Max.max a b) := by
  unfold max lt
  by_cases h : a < b
  · simp [h, Int.max_eq_right (Int.le_of_lt h)]
  · simp [h, Int.max_eq_left (Int.not_lt.mp h)]

theorem sum_isInt {qs : List Quantity} (h : ∀ q ∈ qs, q.IsInt) :
    sum qs = .ok (int (qs.map toInt).sum) := by
  suffices H : ∀ n, qs.foldlM add (int n) = .ok (int (n + (qs.map toInt).sum)) by
    simpa [sum] using H 0
  induction qs with
  | nil =>
      intro n
      simp [pure, Except.pure]
  | cons q qs ih =>
      intro n
      rw [List.foldlM_cons, (isInt_int n).add (h q (by simp))]
      show qs.foldlM add (int (n + q.toInt)) = _
      rw [ih fun r hr => h r (by simp [hr]), List.map_cons, List.sum_cons, Int.add_assoc]

/-- The greatest of some integers is that of their values. -/
theorem maximum_isInt {first : Quantity} {rest : List Quantity} (hfirst : first.IsInt)
    (hrest : ∀ q ∈ rest, q.IsInt) :
    maximum first rest = int ((rest.map toInt).foldl Max.max first.toInt) := by
  unfold maximum
  -- the first argument takes over the greatest quantity so far
  induction rest generalizing first with
  | nil => exact hfirst.eq
  | cons q rest ih =>
      have hmax : first.max q = int (Max.max first.toInt q.toInt) := by
        rw [hfirst.eq, (hrest q (by simp)).eq]
        exact max_int _ _
      rw [List.foldl_cons, hmax, ih (isInt_int _) fun r hr => hrest r (by simp [hr])]
      rfl

end Quantity

open Quantity

/-- Whether all measures of the layout are integers. -/
structure Layout.IsInt (layout : Layout) : Prop where
  padding : layout.padding.IsInt
  margin : layout.margin.IsInt
  horizontalGap : layout.horizontalGap.IsInt
  verticalGap : layout.verticalGap.IsInt
  labelPadding : layout.labelPadding.IsInt
  participantFontSize : layout.participantFontSize.IsInt
  messageFontSize : layout.messageFontSize.IsInt
  titleFontSize : layout.titleFontSize.IsInt

/-- Whether both dimensions are integers. -/
structure Size.IsInt (size : Size) : Prop where
  width : size.width.IsInt
  height : size.height.IsInt

/-- Whether both dimensions of the label are integers. -/
structure Participant.IsInt (p : Participant) : Prop where
  labelWidth : p.labelWidth.IsInt
  labelHeight : p.labelHeight.IsInt

variable {layout : Layout} {ps : List Participant}

/-! ### The layout -/

theorem Layout.isInt_default : ({} : Layout).IsInt := by
  constructor <;> exact ⟨_, rfl⟩

namespace Layout.IsInt

theorem inset (h : layout.IsInt) :
    layout.inset = .ok (.int (layout.padding.toInt + layout.margin.toInt)) :=
  h.padding.add h.margin

theorem labelMargins (h : layout.IsInt) :
    layout.labelMargins = .ok (.int (2 * layout.labelPadding.toInt)) :=
  (isInt_int 2).mul h.labelPadding

theorem participantGap (h : layout.IsInt) :
    layout.participantGap =
      .ok (.int (2 * layout.labelPadding.toInt + layout.horizontalGap.toInt)) := by
  rw [Layout.participantGap, h.labelMargins]
  exact (isInt_int _).add h.horizontalGap

theorem frameSize (h : layout.IsInt) :
    frameSize layout = .ok (.int (2 * layout.padding.toInt + 2 * layout.margin.toInt)) := by
  rw [SequenceChart.frameSize, (isInt_int 2).mul h.padding, (isInt_int 2).mul h.margin]
  exact (isInt_int _).add (isInt_int _)

end Layout.IsInt

/-! ### The canvas -/

/-- The greatest height among the labels, zero if there is none. -/
def tallestLabel : List Participant → Int
  | [] => 0
  | first :: rest =>
    (rest.map fun p => p.labelHeight.toInt).foldl Max.max first.labelHeight.toInt

/-- In whole numbers the boxes have a height, that of the tallest label with its padding. -/
theorem boxHeight_isInt (hl : layout.IsInt) (hps : ∀ p ∈ ps, p.IsInt) :
    boxHeight ps layout =
      .ok (.int (if ps = [] then 0 else tallestLabel ps + 2 * layout.labelPadding.toInt)) := by
  rcases ps with - | ⟨first, rest⟩
  · rfl
  -- the height of the tallest label is an integer because all heights are
  · have hfirst : first.labelHeight.IsInt := (hps first (by simp)).labelHeight
    have hrest : ∀ q ∈ rest.map Participant.labelHeight, q.IsInt := by
      intro q hq
      obtain ⟨p, hp, rfl⟩ := List.mem_map.mp hq
      exact (hps p (by simp [hp])).labelHeight
    rw [boxHeight, hl.labelMargins]
    show (maximum _ _).add _ = _
    rw [maximum_isInt hfirst hrest, (isInt_int _).add (isInt_int _), List.map_map]
    simp only [reduceCtorEq, if_false, tallestLabel]
    rfl

/-- The width of the canvas in whole numbers. -/
theorem canvasWidth_isInt (hl : layout.IsInt) (hps : ∀ p ∈ ps, p.IsInt) :
    canvasWidth ps layout =
      .ok (.int (2 * layout.padding.toInt + 2 * layout.margin.toInt +
        (ps.map fun p => p.labelWidth.toInt).sum +
        (ps.length - 1 : Nat) * layout.horizontalGap.toInt +
        (ps.length * 2 : Nat) * layout.labelPadding.toInt)) := by
  have hwidths : ∀ q ∈ ps.map Participant.labelWidth, q.IsInt := by
    intro q hq
    obtain ⟨p, hp, rfl⟩ := List.mem_map.mp hq
    exact (hps p hp).labelWidth
  rw [canvasWidth, hl.frameSize, sum_isInt hwidths, (isInt_int _).mul hl.horizontalGap,
    (isInt_int _).mul hl.labelPadding, List.map_map]
  rfl

theorem canvasHeight_isInt (hl : layout.IsInt) (hps : ∀ p ∈ ps, p.IsInt) (interactions : Nat) :
    canvasHeight ps interactions layout =
      .ok (.int (2 * layout.padding.toInt + 2 * layout.margin.toInt +
        (if ps = [] then 0 else tallestLabel ps + 2 * layout.labelPadding.toInt) +
        interactions * layout.verticalGap.toInt)) := by
  rw [canvasHeight, hl.frameSize, boxHeight_isInt hl hps, (isInt_int _).mul hl.verticalGap]
  rfl

/-- In whole numbers the canvas always has a size. -/
theorem exists_canvasSize (hl : layout.IsInt) (hps : ∀ p ∈ ps, p.IsInt) (interactions : Nat) :
    ∃ size, canvasSize ps interactions layout = .ok size ∧ size.IsInt := by
  rw [canvasSize, canvasWidth_isInt hl hps, canvasHeight_isInt hl hps]
  exact ⟨_, rfl, ⟨isInt_int _, isInt_int _⟩⟩

end SequenceChart
