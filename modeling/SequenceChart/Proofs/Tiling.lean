/-
SequenceChart/Proofs/Tiling.lean

The participant boxes of a chart in whole numbers.

The pass over the participants moves a cursor to the right, and the width of
the canvas is a closed formula over all labels.  The two agree: the boxes stand
in a row from the left inset to the right one, with one gap between neighbours
and none behind the last (`Diagram.Tiled`).  Where the gap is not negative and
every box has some width, boxes never overlap, and the side on which a box
stands tells the direction of an arrow (`Diagram.Apart`).

A row of boxes is a relation between the place where it starts and the place
where its next box would stand (`InRow`).  It holds of the roster and its
cursor at every moment of the pass (`Roster.inRow_mention`), and everything
else is read off it.
-/
import Mathlib.Tactic.Ring
import SequenceChart.Proofs.Coherence
import SequenceChart.Proofs.Measuring

namespace SequenceChart

open Quantity

variable {σ : Type} {measurer : Measurer σ} {layout : Layout}

/-- Whether all sizes that are measured are integers. -/
def Measurer.IsInt (measurer : Measurer σ) : Prop :=
  ∀ text fontSize s size, (measurer text fontSize s).result = .ok size → size.IsInt

theorem Measurer.isInt_fixedWidth (width height : Int) :
    (Measurer.fixedWidth width height : Measurer σ).IsInt := by
  intro text fontSize s size h
  obtain rfl := Except.ok.inj h
  exact ⟨isInt_int _, isInt_int _⟩

/-! ### Rosters in whole numbers -/

namespace Roster

variable {roster roster' : Roster} {ms : List Mention}

/-- What a mention does in whole numbers: it extends a span, or enters a new
participant and moves the cursor behind its box and one gap. -/
theorem mention_result_ok_isInt (hl : layout.IsInt) (hm : measurer.IsInt) (hr : roster.IsInt)
    {m : Mention} {s : σ} (h : (mention measurer layout roster m s).result = .ok roster') :
    (∃ name, roster' = roster.extend name m.row) ∨
      ∃ name size, size.IsInt ∧ roster' =
        { entries := roster.entries ++ [roster.newcomer name m.row size]
          cursor := .int (roster.cursor.toInt + (size.width.toInt +
            (2 * layout.labelPadding.toInt + layout.horizontalGap.toInt))) } := by
  obtain ⟨name, -, ⟨-, rfl⟩ | ⟨-, henter⟩⟩ := mention_result_ok h
  · exact .inl ⟨name, rfl⟩
  · obtain ⟨size, gap, advance, cursor, hsize, hgap, hadvance, hcursor, rfl⟩ :=
      enter_result_ok henter
    have hint := hm _ _ _ _ hsize
    obtain rfl := Except.ok.inj (hl.participantGap.symm.trans hgap)
    obtain rfl := Except.ok.inj ((hint.width.add (isInt_int _)).symm.trans hadvance)
    obtain rfl := Except.ok.inj ((hr.cursor.add (isInt_int _)).symm.trans hcursor)
    exact .inr ⟨name, size, hint, rfl⟩

theorem IsInt.mention (hl : layout.IsInt) (hm : measurer.IsInt) (h : roster.IsInt) {m : Mention}
    {s : σ} (hmention : (Roster.mention measurer layout roster m s).result = .ok roster') :
    roster'.IsInt := by
  obtain ⟨name, rfl⟩ | ⟨name, size, hsize, rfl⟩ := mention_result_ok_isInt hl hm h hmention
  · exact h.extend name m.row
  · exact h.newcomer name m.row hsize _

end Roster

/-! ### Rows of boxes -/

/-- The width of a participant's box. -/
def Layout.boxSpan (layout : Layout) (p : Participant) : Int :=
  p.labelWidth.toInt + 2 * layout.labelPadding.toInt

/-- The boxes stand in a row from `lo`, with a gap behind each of them, and the
next one would stand at `hi`. -/
def InRow (layout : Layout) : Int → List Participant → Int → Prop
  | lo, [], hi => lo = hi
  | lo, p :: ps, hi =>
    p.x = .int lo ∧ InRow layout (lo + layout.boxSpan p + layout.horizontalGap.toInt) ps hi

namespace InRow

variable {ps qs : List Participant} {lo hi : Int} {p q : Participant}

theorem append {mid : Int} (h : InRow layout lo ps mid) (h' : InRow layout mid qs hi) :
    InRow layout lo (ps ++ qs) hi := by
  induction ps generalizing lo with
  | nil =>
      obtain rfl : lo = mid := h
      exact h'
  | cons p ps ih => exact ⟨h.1, ih h.2⟩

/-- Only places and label widths matter. -/
theorem map {f : Participant → Participant} (hx : ∀ p, (f p).x = p.x)
    (hwidth : ∀ p, (f p).labelWidth = p.labelWidth) (h : InRow layout lo ps hi) :
    InRow layout lo (ps.map f) hi := by
  induction ps generalizing lo with
  | nil => exact h
  | cons p ps ih =>
      have hspan : layout.boxSpan (f p) = layout.boxSpan p := by
        simp only [Layout.boxSpan, hwidth]
      refine ⟨(hx p).trans h.1, ?_⟩
      rw [hspan]
      exact ih h.2

theorem first (h : InRow layout lo ps hi) (hp : ps[0]? = some p) : p.x = .int lo := by
  cases ps with
  | nil => cases hp
  | cons q ps =>
      obtain rfl : q = p := Option.some.inj hp
      exact h.1

theorem next (h : InRow layout lo ps hi) {i : Nat} (hp : ps[i]? = some p)
    (hq : ps[i + 1]? = some q) :
    q.x = .int (p.x.toInt + layout.boxSpan p + layout.horizontalGap.toInt) := by
  induction ps generalizing lo i with
  | nil => cases hp
  | cons r ps ih =>
      cases i with
      | zero =>
          obtain rfl : r = p := Option.some.inj hp
          rw [h.1]
          exact h.2.first hq
      | succ i => exact ih h.2 hp hq

/-- The last box ends one gap before the end of the row. -/
theorem last (h : InRow layout lo ps hi) (hp : ps.getLast? = some p) :
    p.x.toInt + layout.boxSpan p + layout.horizontalGap.toInt = hi := by
  induction ps generalizing lo with
  | nil => cases hp
  | cons q ps ih =>
      cases ps with
      | nil =>
          obtain rfl : q = p := Option.some.inj hp
          rw [h.1]
          exact h.2
      | cons r ps => exact ih h.2 (by rwa [List.getLast?_cons_cons] at hp)

/-- The length of a row by its labels alone. -/
theorem length (h : InRow layout lo ps hi) :
    hi = lo + (ps.map fun p => p.labelWidth.toInt).sum +
      ps.length * (2 * layout.labelPadding.toInt + layout.horizontalGap.toInt) := by
  induction ps generalizing lo with
  | nil =>
      obtain rfl : lo = hi := h
      simp
  | cons p ps ih =>
      rw [ih h.2, Layout.boxSpan, List.map_cons, List.sum_cons, List.length_cons]
      push_cast
      ring

section

variable (hgap : 0 ≤ layout.horizontalGap.toInt) (hspan : ∀ p ∈ ps, 0 < layout.boxSpan p)
include hgap hspan

/-- Where gaps and boxes have no negative width, every box stands between the
ends of the row. -/
theorem bounds (h : InRow layout lo ps hi) :
    lo ≤ hi ∧ ∀ p ∈ ps, lo ≤ p.x.toInt ∧
      p.x.toInt + layout.boxSpan p + layout.horizontalGap.toInt ≤ hi := by
  induction ps generalizing lo with
  | nil =>
      obtain rfl : lo = hi := h
      exact ⟨Int.le_refl _, by simp⟩
  | cons p ps ih =>
      obtain ⟨hle, hrest⟩ := ih (fun q hq => hspan q (by simp [hq])) h.2
      have hp := hspan p (by simp)
      -- the row starts at the place of its first box
      have hx : p.x.toInt = lo := by rw [h.1]; rfl
      refine ⟨by omega, fun q hq => ?_⟩
      cases hq with
      | head => omega
      | tail _ hq =>
          have := hrest q hq
          omega

/-- An earlier box ends before a later one starts. -/
theorem apart (h : InRow layout lo ps hi) {i j : Nat} (hij : i < j) (hp : ps[i]? = some p)
    (hq : ps[j]? = some q) : p.x.toInt + layout.boxSpan p ≤ q.x.toInt := by
  induction ps generalizing lo i j with
  | nil => cases hp
  | cons r ps ih =>
      have hspan' : ∀ p ∈ ps, 0 < layout.boxSpan p := fun p hp => hspan p (by simp [hp])
      obtain ⟨j, rfl⟩ : ∃ k, j = k + 1 := ⟨j - 1, by omega⟩
      -- the later box stands in the rest of the row, behind the first one
      cases i with
      | zero =>
          obtain rfl : r = p := Option.some.inj hp
          have hx : r.x.toInt = lo := by rw [h.1]; rfl
          have := (h.2.bounds hgap hspan').2 q (List.mem_of_getElem? hq)
          omega
      | succ i => exact ih hspan' h.2 (by omega) hp hq

/-- The order of the boxes is that of their indices. -/
theorem lt_iff (h : InRow layout lo ps hi) {i j : Nat} (hp : ps[i]? = some p)
    (hq : ps[j]? = some q) : i < j ↔ p.x.toInt + layout.boxSpan p ≤ q.x.toInt := by
  refine ⟨fun hij => h.apart hgap hspan hij hp hq, fun hle => ?_⟩
  have hppos := hspan p (List.mem_of_getElem? hp)
  have hqpos := hspan q (List.mem_of_getElem? hq)
  rcases Nat.lt_trichotomy i j with hij | rfl | hji
  · exact hij
  · obtain rfl : p = q := Option.some.inj (hp.symm.trans hq)
    omega
  · have := h.apart hgap hspan hji hq hp
    omega

end

end InRow

/-! ### The pass over the participants -/

namespace Roster

variable {roster roster' : Roster} {ms : List Mention} {lo : Int}

/-- A mention keeps the row: a known participant stays in it, and a new one
takes the place of the cursor. -/
theorem inRow_mention (hl : layout.IsInt) (hm : measurer.IsInt) (hr : roster.IsInt)
    (h : InRow layout lo roster.entries roster.cursor.toInt) {m : Mention} {s : σ}
    (hmention : (mention measurer layout roster m s).result = .ok roster') :
    InRow layout lo roster'.entries roster'.cursor.toInt := by
  obtain ⟨name, rfl⟩ | ⟨name, size, -, rfl⟩ := mention_result_ok_isInt hl hm hr hmention
  · apply h.map
    · intro p
      split <;> rfl
    · intro p
      split <;> rfl
  · refine h.append ⟨hr.cursor.eq, ?_⟩
    show _ + (size.width.toInt + _) + _ = _ + (size.width.toInt + (_ + _))
    ring

/-- A pass leaves its entries in a row that ends at its cursor. -/
theorem inRow_foldlM (hl : layout.IsInt) (hm : measurer.IsInt) (hr : roster.IsInt)
    (h : InRow layout lo roster.entries roster.cursor.toInt) {s : σ}
    (hpass : (ms.foldlM (mention measurer layout) roster s).result = .ok roster') :
    roster'.IsInt ∧ InRow layout lo roster'.entries roster'.cursor.toInt := by
  refine Run.foldlM_invariant
    (I := fun r => r.IsInt ∧ InRow layout lo r.entries r.cursor.toInt) ?_ ⟨hr, h⟩ hpass
  rintro r m - s r' ⟨hr, h⟩ hmention
  exact ⟨hr.mention hl hm hmention, inRow_mention hl hm hr h hmention⟩

end Roster

/-- The participants stand in a row. -/
theorem inRow_resolveParticipants (hl : layout.IsInt) (hm : measurer.IsInt) {lines : List Line}
    {ps : List Participant} {s : σ}
    (h : (resolveParticipants measurer layout lines s).result = .ok ps) :
    (∀ p ∈ ps, p.IsInt) ∧
      ∃ hi, InRow layout (layout.padding.toInt + layout.margin.toInt) ps hi := by
  obtain ⟨start, roster, hstart, hpass, rfl⟩ := resolveParticipants_result_ok h
  obtain rfl := Except.ok.inj (hl.inset.symm.trans hstart)
  have hempty : ({ cursor := .int (layout.padding.toInt + layout.margin.toInt) } : Roster).IsInt :=
    ⟨isInt_int _, by simp⟩
  have hnone : InRow layout (layout.padding.toInt + layout.margin.toInt) []
      (layout.padding.toInt + layout.margin.toInt) := rfl
  obtain ⟨hr, hrow⟩ := Roster.inRow_foldlM hl hm hempty hnone hpass
  obtain ⟨height, hheight⟩ := roster.participants_eq_map
  refine ⟨hr.participants, roster.cursor.toInt, ?_⟩
  rw [hheight]
  exact hrow.map (fun _ => rfl) (fun _ => rfl)

/-! ### Built diagrams -/

/-- A row of boxes is as long as the canvas says: behind the last box there is
room for the right inset, and the gap that would follow it is left out. -/
theorem InRow.canvasWidth {ps : List Participant} {hi : Int} (hl : layout.IsInt)
    (hps : ∀ p ∈ ps, p.IsInt)
    (h : InRow layout (layout.padding.toInt + layout.margin.toInt) ps hi) :
    canvasWidth ps layout = .ok (.int (if ps = [] then
      2 * (layout.padding.toInt + layout.margin.toInt)
      else hi - layout.horizontalGap.toInt + layout.padding.toInt + layout.margin.toInt)) := by
  rw [canvasWidth_isInt hl hps, h.length]
  cases ps with
  | nil =>
      simp
      ring
  | cons p ps =>
      simp
      ring

namespace Diagram

/-- The boxes stand side by side between the insets of the canvas. -/
structure Tiled (d : Diagram) : Prop where
  width : ∀ p ∈ d.participants, p.labelWidth = .int p.labelWidth.toInt ∧
    d.boxWidth p = .ok (.int (d.layout.boxSpan p))
  first : ∀ p, d.participants[0]? = some p →
    p.x = .int (d.layout.padding.toInt + d.layout.margin.toInt)
  next : ∀ (i : Nat) (p q : Participant),
    d.participants[i]? = some p → d.participants[i + 1]? = some q →
    q.x = .int (p.x.toInt + d.layout.boxSpan p + d.layout.horizontalGap.toInt)
  last : ∀ p, d.participants.getLast? = some p →
    d.canvas.width = .int (p.x.toInt + d.layout.boxSpan p + d.layout.padding.toInt +
      d.layout.margin.toInt)
  empty : d.participants = [] →
    d.canvas.width = .int (2 * (d.layout.padding.toInt + d.layout.margin.toInt))

/-- No two boxes overlap, none leaves the frame, and an arrow points to the
side on which its receiver stands. -/
structure Apart (d : Diagram) : Prop where
  disjoint : ∀ (i j : Nat) (p q : Participant), i < j →
    d.participants[i]? = some p → d.participants[j]? = some q →
    p.x.toInt + d.layout.boxSpan p ≤ q.x.toInt
  within : ∀ p ∈ d.participants,
    d.layout.padding.toInt + d.layout.margin.toInt ≤ p.x.toInt ∧
    p.x.toInt + d.layout.boxSpan p ≤
      d.canvas.width.toInt - (d.layout.padding.toInt + d.layout.margin.toInt)
  rightward : ∀ i ∈ d.interactions, i.direction = .rightward ↔
    i.sender.x.toInt + d.layout.boxSpan i.sender ≤ i.receiver.x.toInt
  leftward : ∀ i ∈ d.interactions, i.direction = .leftward ↔
    i.receiver.x.toInt + d.layout.boxSpan i.receiver ≤ i.sender.x.toInt

section

variable {lines : List Line} {s : σ} {d : Diagram}

/-- The participants of a built diagram stand in a row, and its canvas is as
wide as that row. -/
theorem inRow_of_build (hl : layout.IsInt) (hm : measurer.IsInt)
    (h : (build measurer layout lines s).result = .ok d) :
    d.layout = layout ∧ (∀ p ∈ d.participants, p.IsInt) ∧
      ∃ hi, InRow layout (layout.padding.toInt + layout.margin.toInt) d.participants hi ∧
        d.canvas.width = .int (if d.participants = [] then
          2 * (layout.padding.toInt + layout.margin.toInt)
          else hi - layout.horizontalGap.toInt + layout.padding.toInt + layout.margin.toInt) := by
  obtain ⟨_, hresolved, -, hcanvas, -, -, -, hlayout⟩ := build_result_ok h
  obtain ⟨hint, hi, hrow⟩ := inRow_resolveParticipants hl hm hresolved
  rw [canvasSize, hrow.canvasWidth hl hint, canvasHeight_isInt hl hint] at hcanvas
  refine ⟨hlayout, hint, hi, hrow, ?_⟩
  rw [← Except.ok.inj hcanvas]

/-- The boxes of a chart in whole numbers fill its width. -/
theorem tiled_of_build (hl : layout.IsInt) (hm : measurer.IsInt)
    (h : (build measurer layout lines s).result = .ok d) : d.Tiled := by
  obtain ⟨rfl, hint, hi, hrow, hcanvas⟩ := inRow_of_build hl hm h
  refine
    { width := fun p hp => ⟨(hint p hp).labelWidth.eq, ?_⟩
      first := fun p hp => hrow.first hp
      next := fun i p q hp hq => hrow.next hp hq
      last := fun p hp => ?_
      empty := fun hnone => by rw [hcanvas, if_pos hnone] }
  · rw [boxWidth, hl.labelMargins]
    exact (hint p hp).labelWidth.add (isInt_int _)
  -- the row ends where the canvas has its last inset
  · have hsome : d.participants ≠ [] := List.ne_nil_of_mem (List.mem_of_getLast? hp)
    rw [hcanvas, if_neg hsome, ← hrow.last hp]
    congr 1
    ring

/-- Where gaps are not negative and boxes not empty, the row that is measured
is the row that is seen. -/
theorem apart_of_build (hl : layout.IsInt) (hm : measurer.IsInt)
    (h : (build measurer layout lines s).result = .ok d)
    (hgap : 0 ≤ d.layout.horizontalGap.toInt)
    (hspan : ∀ p ∈ d.participants, 0 < d.layout.boxSpan p) : d.Apart := by
  have hcoherent := coherent_of_build h
  obtain ⟨rfl, -, hi, hrow, hcanvas⟩ := inRow_of_build hl hm h
  -- endpoints are participants, in the order of their indices
  have horder : ∀ i ∈ d.interactions, ∀ p ∈ i.endpoints, ∀ q ∈ i.endpoints,
      p.index < q.index ↔ p.x.toInt + d.layout.boxSpan p ≤ q.x.toInt := by
    intro i hi p hp q hq
    obtain ⟨n, hpn, hp⟩ := hcoherent.endpoint i hi p hp
    obtain ⟨m, hqm, hq⟩ := hcoherent.endpoint i hi q hq
    rw [hpn, hqm, Int.ofNat_lt]
    exact hrow.lt_iff hgap hspan hp hq
  have hsender : ∀ i : Interaction, i.sender ∈ i.endpoints := fun i => List.mem_cons_self
  have hreceiver : ∀ i : Interaction, i.receiver ∈ i.endpoints := fun i =>
    List.mem_cons_of_mem _ List.mem_cons_self
  refine
    { disjoint := fun i j p q hij hp hq => hrow.apart hgap hspan hij hp hq
      within := fun p hp => ?_
      rightward := fun i hi => (hcoherent.direction i hi).1.trans
        (horder i hi _ (hsender i) _ (hreceiver i))
      leftward := fun i hi => (hcoherent.direction i hi).2.1.trans
        (horder i hi _ (hreceiver i) _ (hsender i)) }
  obtain ⟨hleft, hright⟩ := (hrow.bounds hgap hspan).2 p hp
  refine ⟨hleft, ?_⟩
  rw [hcanvas, if_neg (List.ne_nil_of_mem hp), toInt]
  omega

end

/-- **The boxes tile the canvas**: a diagram that is read from a source in
whole numbers has its boxes side by side between the insets, and if gaps are
not negative and boxes not empty, they are apart from each other and an arrow
points to where its receiver stands. -/
theorem tiled_of_source (hl : layout.IsInt) (hm : measurer.IsInt) {s : σ} {d : Diagram}
    (h : (∃ source, (ofText measurer layout source s).result = .ok d) ∨
      ∃ texts, (ofLines measurer layout texts s).result = .ok d) :
    d.layout = layout ∧ d.Tiled ∧
      (0 ≤ d.layout.horizontalGap.toInt → (∀ p ∈ d.participants, 0 < d.layout.boxSpan p) →
        d.Apart) := by
  obtain ⟨lines, h⟩ : ∃ lines, (build measurer layout lines s).result = .ok d := by
    rcases h with ⟨source, h⟩ | ⟨texts, h⟩
    · exact ⟨_, h⟩
    · exact ⟨_, h⟩
  exact ⟨(inRow_of_build hl hm h).1, tiled_of_build hl hm h, apart_of_build hl hm h⟩

/-- Three boxes of 50, 30 and 40, two gaps of 25 and two insets of 25. -/
theorem tiled_of_source_three : ∃ d : Diagram,
    (ofText (.fixedWidth 10 20) {} "Ada -> B: x\nCy -> Ada\nB -> B" ()).result = .ok d ∧
      d.participants.map Participant.x = [.int 25, .int 100, .int 155] ∧
      d.canvas.width = .int 220 ∧ d.Tiled ∧ d.Apart := by
  have hplaces : (ofText (.fixedWidth 10 20) {} "Ada -> B: x\nCy -> Ada\nB -> B" ()).result.map
      (fun d => (d.participants.map Participant.x, d.canvas.width,
        d.participants.map Participant.labelWidth)) =
      .ok ([.int 25, .int 100, .int 155], .int 220, [.int 30, .int 10, .int 20]) := by
    decide +kernel
  obtain ⟨d, hd, hplaces⟩ := map_eq_ok.mp hplaces
  obtain ⟨hx, hcanvas, hwidths⟩ : _ ∧ _ ∧ _ := by simpa only [Prod.mk.injEq] using hplaces
  have hl : ({} : Layout).IsInt := by
    constructor <;> exact ⟨_, rfl⟩
  have hm : (Measurer.fixedWidth 10 20 : Measurer Unit).IsInt := by
    intro text fontSize s size h
    obtain rfl := Except.ok.inj h
    exact ⟨isInt_int _, isInt_int _⟩
  obtain ⟨hlayout, htiled, hapart⟩ := tiled_of_source hl hm (.inl ⟨_, hd⟩)
  refine ⟨d, hd, hx, hcanvas, htiled, hapart ?_ fun p hp => ?_⟩
  · rw [hlayout]
    decide
  · have hp : p.labelWidth ∈ d.participants.map Participant.labelWidth := List.mem_map_of_mem hp
    rw [hwidths] at hp
    rw [hlayout, Layout.boxSpan]
    simp only [List.mem_cons, List.not_mem_nil, or_false] at hp
    rcases hp with hp | hp | hp <;>
    · rw [hp]
      decide

end Diagram

end SequenceChart
