/-
SequenceChart/Proofs/Piece.lean

The pieces of a drawing, taken apart.

A piece that can be drawn is made of strokes and labelled elements with tame
attributes, and some of these attributes are the numbers that were calculated
for it.  There is one lemma for each kind of piece.  What drawings show, what
they say of their geometry and whether they are legal is read off the pieces,
and need not know how a piece is put together.
-/
import SequenceChart.Drawing
import SequenceChart.Proofs.Markup.Tame
import SequenceChart.Proofs.Run

namespace SequenceChart.Drawing

open Markup

variable {d : Diagram} {layout : Layout} {tokens : List Token}

/-! ### The arrow head and the header -/

/-- The arrow head is two tame tags. -/
theorem arrowMarker_eq_ok (h : arrowMarker = .ok tokens) : ∃ marker polygon,
    TameAttributes marker ∧ TameAttributes polygon ∧
      tokens = [.data "  ", .start "marker" marker, .data "\n    ", .void "polygon" polygon,
        .data "\n  ", .finish "marker"] := by
  simp only [arrowMarker, bind_eq_ok] at h
  obtain ⟨middle, -, h⟩ := h
  refine ⟨_, _, ?_, ?_, (Except.ok.inj h).symm⟩
  · simp +decide [TameAttributes, tameAttribute_iff, Quantity.tame_text]
  · simp +decide [TameAttributes, tameAttribute_iff, Quantity.tame_text]

/-- A header line is its text at a place. -/
theorem HeaderLine.draw_eq_ok {y : Quantity} {line : HeaderLine}
    (h : line.draw layout y = .ok tokens) :
    ∃ placing, TameAttributes placing ∧ tokens = labelled "text" placing line.text := by
  simp only [HeaderLine.draw, bind_eq_ok] at h
  obtain ⟨height, -, x, -, half, -, middle, -, h⟩ := h
  have hfill : Tame line.fill.toList := by
    unfold HeaderLine.fill
    cases line.role <;> decide
  refine ⟨_, ?_, (Except.ok.inj h).symm⟩
  simp +decide [TameAttributes, tameAttribute_iff, Quantity.tame_text, baselineShift, weightText,
    hfill]

/-- Each line of the header is a piece of its own. -/
theorem drawHeader_eq_ok {y : Quantity} {lines : List HeaderLine} {pieces : List (List Token)}
    (h : drawHeader layout y lines = .ok pieces) : List.Forall₂ (fun piece line =>
      ∃ placing, TameAttributes placing ∧ piece = labelled "text" placing line.text)
      pieces lines := by
  induction lines generalizing y pieces with
  | nil =>
      obtain rfl := Except.ok.inj h
      exact .nil
  | cons line lines ih =>
      simp only [drawHeader, bind_eq_ok] at h
      obtain ⟨drawn, hdrawn, next, -, rest, hrest, h⟩ := h
      obtain rfl := Except.ok.inj h
      exact .cons (HeaderLine.draw_eq_ok hdrawn) (ih hrest)

/-! ### Participants -/

/-- A lifeline goes from the top of the first row to the bottom inset. -/
theorem lifeline_eq_ok {p : Participant} (h : lifeline d p = .ok tokens) :
    ∃ x inset top bottom shape, d.lifelineX p = .ok x ∧ d.layout.inset = .ok inset ∧
      inset.add d.boxHeight = .ok top ∧ d.canvas.height.sub inset = .ok bottom ∧
      TameAttributes shape ∧ tokens = [.void "line" shape] ∧
      shape.lookup "x1" = some x.text ∧ shape.lookup "y1" = some top.text ∧
      shape.lookup "x2" = some x.text ∧ shape.lookup "y2" = some bottom.text := by
  simp only [lifeline, bind_eq_ok] at h
  obtain ⟨x, hx, inset, hinset, top, htop, inset', hinset', bottom, hbottom, h⟩ := h
  obtain rfl := Except.ok.inj (hinset.symm.trans hinset')
  refine ⟨x, inset, top, bottom, _, hx, hinset, htop, hbottom, ?_, (Except.ok.inj h).symm,
    rfl, rfl, rfl, rfl⟩
  simp +decide [TameAttributes, tameAttribute_iff, Quantity.tame_text]

theorem activation_eq_ok {p : Participant} (h : activation d p = .ok tokens) :
    ∃ shape, TameAttributes shape ∧ tokens = [.void "rect" shape] := by
  simp only [activation, bind_eq_ok] at h
  obtain ⟨half, -, middle, -, x, -, first, -, top, -, last, -, bottom, -, height, -, h⟩ := h
  refine ⟨_, ?_, (Except.ok.inj h).symm⟩
  simp +decide [TameAttributes, tameAttribute_iff, Quantity.tame_text]

/-- A box starts at the inset, and the name is written in the middle of it,
which is where the lifeline is. -/
theorem participantBox_eq_ok {p : Participant} (h : participantBox d p = .ok tokens) :
    ∃ inset x shape placing, d.layout.inset = .ok inset ∧ d.lifelineX p = .ok x ∧
      TameAttributes shape ∧ TameAttributes placing ∧
      tokens = .void "rect" shape :: .data "\n" :: labelled "text" placing p.name ∧
      shape.lookup "y" = some inset.text ∧ shape.lookup "height" = some d.boxHeight.text ∧
      placing.lookup "x" = some x.text := by
  simp only [participantBox, bind_eq_ok] at h
  obtain ⟨inset, hinset, width, hwidth, half, hhalf, x, hx, _, -, centre, -, h⟩ := h
  have hlifeline : d.lifelineX p = .ok x := by
    simp only [Diagram.lifelineX, bind_eq_ok]
    exact ⟨width, hwidth, half, hhalf, hx⟩
  refine ⟨inset, x, _, _, hinset, hlifeline, ?_, ?_, (Except.ok.inj h).symm, rfl, rfl, rfl⟩
  · simp +decide [TameAttributes, tameAttribute_iff, Quantity.tame_text]
  · simp +decide [TameAttributes, tameAttribute_iff, Quantity.tame_text, baselineShift, weightText]

/-! ### Interactions -/

theorem tame_messageStyle (layout : Layout) : TameAttributes
    [("font-size", layout.messageFontSize.text), ("font-weight", weightText messageWeight),
     ("fill", "var(--_text-muted)")] := by
  simp +decide [TameAttributes, tameAttribute_iff, Quantity.tame_text, weightText]

/-- Where the label of a message is placed, a message that has no text is drawn
as nothing, and any other one in the same style. -/
theorem messageLabel_cases (layout : Layout) {placing : List Attribute}
    (h : TameAttributes placing) : ∃ style, TameAttributes style ∧ ∀ message : Option String,
      (message.bind nonempty? = none ∧ messageLabel layout message placing = []) ∨
        ∃ text, message.bind nonempty? = some text ∧
          messageLabel layout message placing = .data "\n" :: labelled "text" style text := by
  refine ⟨_, h.append (tame_messageStyle layout), fun message => ?_⟩
  unfold messageLabel
  rcases message.bind nonempty? with - | text
  · exact .inl ⟨rfl, rfl⟩
  · exact .inr ⟨text, rfl, rfl⟩

theorem tame_point (x y : Quantity) : Tame (point x y).toList := by
  simp +decide [point, Quantity.tame_text]

theorem tame_loop (x1 x2 right y bottom : Quantity) : TameAttributes
    [("points", String.intercalate " "
        [point x1 y, point right y, point right bottom, point x2 bottom]),
     ("fill", "none"), ("stroke", "var(--_line)"), ("stroke-width", "0.75"), arrowHead] := by
  have hpoints : Tame (String.intercalate " "
      [point x1 y, point right y, point right bottom, point x2 bottom]).toList := by
    refine Tame.intercalate (by decide) ?_
    simp only [List.forall_mem_cons, tame_point, List.not_mem_nil, false_implies, implies_true,
      and_self]
  -- four points in one attribute, and only their being tame matters
  generalize String.intercalate " "
    [point x1 y, point right y, point right bottom, point x2 bottom] = points at hpoints ⊢
  simp +decide [TameAttributes, tameAttribute_iff, arrowHead, hpoints]

/-- A loop goes through four points, the first one at one lifeline and the last
one at the other. -/
theorem loopArrow_eq_ok {x1 x2 y : Quantity} {message : Option String}
    (h : loopArrow layout x1 x2 y message = .ok tokens) : ∃ right bottom shape placing,
      TameAttributes shape ∧ TameAttributes placing ∧
      tokens = .void "polyline" shape :: messageLabel layout message placing ∧
      shape.lookup "points" = some (String.intercalate " "
        [point x1 y, point right y, point right bottom, point x2 bottom]) := by
  simp only [loopArrow, bind_eq_ok] at h
  obtain ⟨right, -, bottom, -, labelX, -, half, -, labelY, -, h⟩ := h
  refine ⟨right, bottom, _, _, tame_loop x1 x2 right y bottom, ?_, (Except.ok.inj h).symm, rfl⟩
  simp +decide [TameAttributes, tameAttribute_iff, Quantity.tame_text, baselineShift]

theorem tame_straight (x1 x2 y : Quantity) : TameAttributes
    [("x1", x1.text), ("y1", y.text), ("x2", x2.text), ("y2", y.text),
     ("stroke", "var(--_line)"), ("stroke-width", "0.75"), arrowHead] := by
  simp +decide [TameAttributes, tameAttribute_iff, Quantity.tame_text, arrowHead]

/-- Any other arrow is a level line from one lifeline to the other. -/
theorem straightArrow_eq_ok {x1 x2 y : Quantity} {message : Option String}
    (h : straightArrow layout x1 x2 y message = .ok tokens) : ∃ shape placing,
      TameAttributes shape ∧ TameAttributes placing ∧
      tokens = .void "line" shape :: messageLabel layout message placing ∧
      shape.lookup "x1" = some x1.text ∧ shape.lookup "y1" = some y.text ∧
      shape.lookup "x2" = some x2.text ∧ shape.lookup "y2" = some y.text := by
  simp only [straightArrow, bind_eq_ok] at h
  obtain ⟨sum, -, middle, -, above, -, h⟩ := h
  refine ⟨_, _, tame_straight x1 x2 y, ?_, (Except.ok.inj h).symm, rfl, rfl, rfl, rfl⟩
  simp +decide [TameAttributes, tameAttribute_iff, Quantity.tame_text]

/-- An arrow runs between the lifelines of its endpoints, with its label behind
it. -/
theorem arrow_eq_ok {i : Interaction} (h : arrow d i = .ok tokens) :
    ∃ x1 x2 y stroke shape placing,
      d.lifelineX i.sender = .ok x1 ∧ d.lifelineX i.receiver = .ok x2 ∧ d.arrowY i.row = .ok y ∧
      TameAttributes shape ∧ TameAttributes placing ∧
      tokens = .void stroke shape :: messageLabel d.layout i.message placing ∧
      (i.direction = .loop ∧ stroke = "polyline" ∧
          (∃ right bottom, shape.lookup "points" = some (String.intercalate " "
            [point x1 y, point right y, point right bottom, point x2 bottom])) ∨
        i.direction ≠ .loop ∧ stroke = "line" ∧
          shape.lookup "x1" = some x1.text ∧ shape.lookup "y1" = some y.text ∧
          shape.lookup "x2" = some x2.text ∧ shape.lookup "y2" = some y.text) := by
  simp only [arrow, bind_eq_ok] at h
  obtain ⟨x1, hx1, x2, hx2, y, hy, h⟩ := h
  -- the two kinds of arrows are drawn by functions of their own
  by_cases hloop : i.direction = .loop
  · rw [if_pos hloop] at h
    obtain ⟨right, bottom, shape, placing, hshape, hplacing, htokens, hpoints⟩ :=
      loopArrow_eq_ok h
    exact ⟨x1, x2, y, "polyline", shape, placing, hx1, hx2, hy, hshape, hplacing, htokens,
      .inl ⟨hloop, rfl, right, bottom, hpoints⟩⟩
  · rw [if_neg hloop] at h
    obtain ⟨shape, placing, hshape, hplacing, htokens, hends⟩ := straightArrow_eq_ok h
    exact ⟨x1, x2, y, "line", shape, placing, hx1, hx2, hy, hshape, hplacing, htokens,
      .inr ⟨hloop, rfl, hends⟩⟩

end SequenceChart.Drawing
