/-
SequenceChart/Proofs/Wording.lean

Where the wording of the messages shows in a drawing.

It shows in the labels behind the strokes of the arrows, and nowhere else.  On
one side, these labels are what an eraser takes from a drawing
(`Diagram.textsOf_bareTags_draw`).  On the other side, diagrams whose
interactions differ only in what their messages say are drawn alike but for
these labels (`Diagram.Reworded.concur_draw`): each step of the drawing either
is the same on both sides or draws an arrow.  The width is widened for loops by
the lengths of their messages, which therefore have to agree.
-/
import SequenceChart.Proofs.Markup.Erasure
import SequenceChart.Proofs.Outline
import SequenceChart.Proofs.Piece
import SequenceChart.Proofs.Rendering

namespace SequenceChart

open Markup

variable {layout : Layout}

/-! ### What an eraser takes from a drawing -/

namespace Drawing

/-- Names that start with one that is not `text`: nothing of them is the label of
a stroke in front. -/
def Unlabelling (names : List String) : Prop :=
  ∀ behind texts, blanked behind names texts = blanked false names texts

theorem unlabelling_cons {name : String} (h : name ≠ "text") (names : List String) :
    Unlabelling (name :: names) := by
  intro behind texts
  rw [blanked, blanked, if_neg h, if_neg h]

/-- Names without a `text` among them have no text either. -/
theorem blanked_append_of_not_mem {names rest : List String} (h : "text" ∉ names)
    (hrest : Unlabelling rest) (behind : Bool) (texts : List String) :
    blanked behind (names ++ rest) texts = blanked false rest texts := by
  induction names generalizing behind with
  | nil => exact hrest behind texts
  | cons name names ih =>
      obtain ⟨hname, hnames⟩ := not_or.mp (List.mem_cons.not.mp h)
      rw [List.cons_append, blanked, if_neg (Ne.symm hname)]
      exact ih hnames _

/-- No text of the header is behind a stroke. -/
theorem blanked_header (lines : List HeaderLine) (names texts : List String) :
    blanked false (lines.flatMap (fun _ => ["text", "/text"]) ++ names)
        (lines.map HeaderLine.text ++ texts) =
      lines.map HeaderLine.text ++ blanked false names texts := by
  induction lines with
  | nil => rfl
  | cons line lines ih => exact congrArg (line.text :: ·) ih

theorem blanked_boxes (ps : List Participant) (names texts : List String) :
    blanked false (ps.flatMap (fun _ => ["rect", "text", "/text"]) ++ names)
        (ps.map Participant.name ++ texts) =
      ps.map Participant.name ++ blanked false names texts := by
  induction ps with
  | nil => rfl
  | cons p ps ih => exact congrArg (p.name :: ·) ih

/-- The tags of an interaction are a stroke and, if it has a message, the label
behind it. -/
theorem outline_cases (i : Interaction) :
    ∃ stroke, (stroke = "line" ∨ stroke = "polyline") ∧
      ((i.label? = none ∧ i.outline = [stroke]) ∨
        ∃ text, i.label? = some text ∧ i.outline = [stroke, "text", "/text"]) := by
  refine ⟨if i.direction = .loop then "polyline" else "line", ?_, ?_⟩
  · split
    · exact .inr rfl
    · exact .inl rfl
  rw [Interaction.outline, Interaction.label?]
  rcases hlabel : i.message.bind nonempty? with - | text
  · exact .inl ⟨rfl, by rw [if_pos (bind_nonempty?_eq_none_iff.mp hlabel)]⟩
  · have hnonempty : ¬i.message.getD "" = "" := by
      rw [← bind_nonempty?_eq_none_iff, hlabel]
      exact Option.some_ne_none text
    exact .inr ⟨text, rfl, by rw [if_neg hnonempty]⟩

theorem blanked_stroke {stroke : String} (h : stroke = "line" ∨ stroke = "polyline")
    (behind : Bool) (names texts : List String) :
    blanked behind (stroke :: names) texts = blanked true names texts := by
  rcases h with rfl | rfl <;> rfl

/-- Behind a stroke stands the label of its message. -/
theorem blanked_arrows (is : List Interaction) {names : List String} (h : Unlabelling names)
    (behind : Bool) (texts : List String) :
    blanked behind (is.flatMap Interaction.outline ++ names)
        (is.filterMap Interaction.label? ++ texts) =
      (is.filterMap Interaction.label?).map (fun _ => "") ++ blanked false names texts := by
  induction is generalizing behind with
  | nil => exact h behind texts
  | cons i is ih =>
      obtain ⟨stroke, hstroke, ⟨hlabel, houtline⟩ | ⟨text, hlabel, houtline⟩⟩ := outline_cases i
      · rw [List.flatMap_cons, houtline, List.append_assoc, List.singleton_append,
          blanked_stroke hstroke, List.filterMap_cons_none hlabel]
        exact ih true
      · rw [List.flatMap_cons, houtline, List.append_assoc, List.cons_append,
          blanked_stroke hstroke, List.filterMap_cons_some hlabel]
        exact congrArg ("" :: ·) (ih false)

/-- Only the labels of messages are blanked. -/
theorem blanked_outline (d : Diagram) : blanked false d.outline d.labels =
    (headerLines d.header).map HeaderLine.text ++
      (d.interactions.filterMap Interaction.label?).map (fun _ => "") ++
        d.participants.map Participant.name := by
  -- what stands behind the strokes of one part is never a text of the next
  have hboxes : Unlabelling (d.participants.flatMap (fun _ => ["rect", "text", "/text"]) ++
      ["/g", "/svg"]) := by
    rcases d.participants with - | ⟨p, ps⟩ <;> exact unlabelling_cons (by decide) _
  have harrows : Unlabelling (d.interactions.flatMap Interaction.outline ++
      (d.participants.flatMap (fun _ => ["rect", "text", "/text"]) ++ ["/g", "/svg"])) := by
    rcases d.interactions with - | ⟨i, is⟩
    · exact hboxes
    · have hne : (if i.direction = .loop then "polyline" else "line") ≠ "text" := by
        split <;> decide
      exact unlabelling_cons hne _
  have hlines : "text" ∉ ["g"] ++ d.participants.map (fun _ => "line") ++
      d.participants.map (fun _ => "rect") := by
    simp
  have hframe := blanked_append_of_not_mem hlines harrows false
    (d.interactions.filterMap Interaction.label? ++ (d.participants.map Participant.name ++ []))
  rw [blanked_arrows _ hboxes, blanked_boxes] at hframe
  have hheader := blanked_header (headerLines d.header)
  simp only [Diagram.outline, Diagram.labels, List.append_assoc, List.append_nil] at hframe ⊢
  refine (hheader _ _).trans ?_
  rw [hframe]
  simp [blanked]

end Drawing

/-- **What an eraser takes from a drawing is the messages.**  Of the texts of a
drawing in a font and colours that are free of markup, the header and the names
stay as they are, and every message is blanked. -/
theorem Diagram.textsOf_bareTags_draw {d : Diagram} {palette : Palette} {font : String}
    {transparent : Bool} {svg : String} (hpalette : palette.IsPlain) (hfont : Plain font.toList)
    (h : d.draw palette font transparent = .ok svg) :
    ∃ tags, cut? svg = some tags ∧ textsOf (bareTags false tags) =
      (Drawing.headerLines d.header).map Drawing.HeaderLine.text ++
        (d.interactions.filterMap Interaction.label?).map (fun _ => "") ++
          d.participants.map Participant.name := by
  simp only [draw, bind_eq_ok] at h
  obtain ⟨tokens, htokens, h⟩ := h
  obtain rfl := Except.ok.inj h
  obtain ⟨tags, hcut, hnames, htexts⟩ := cut?_print (Drawing.shows_tokens hpalette hfont htokens)
  refine ⟨tags, hcut, ?_⟩
  rw [textsOf_bareTags, hnames, htexts, Drawing.blanked_outline]

/-! ### Reworded interactions -/

/-- An interaction without its message and the number of its line. -/
def Interaction.unlabelled (i : Interaction) : Interaction :=
  { i with message := none, lineNumber := 0 }

/-- The interactions differ at most in the numbers of their lines and in what
their messages say. -/
structure Interaction.Reworded (i j : Interaction) : Prop where
  unlabelled : i.unlabelled = j.unlabelled
  labelled : i.label?.isSome = j.label?.isSome
  length : i.direction = .loop → (i.message.getD "").length = (j.message.getD "").length

/-- Reworded interactions differ in message and line number alone. -/
theorem Interaction.Reworded.eq_with {i j : Interaction} (h : i.Reworded j) :
    j = { i with message := j.message, lineNumber := j.lineNumber } := by
  have hsame := h.unlabelled
  simp only [Interaction.unlabelled, Interaction.mk.injEq] at hsame
  obtain ⟨hrow, hsender, hreceiver, hdirection, -, -⟩ := hsame
  rw [hrow, hsender, hreceiver, hdirection]

/-- The diagrams differ at most in their issues and in how their interactions are
worded. -/
structure Diagram.Reworded (d e : Diagram) : Prop where
  participants : d.participants = e.participants
  interactions : List.Forall₂ Interaction.Reworded d.interactions e.interactions
  canvas : d.canvas = e.canvas
  boxHeight : d.boxHeight = e.boxHeight
  header : d.header = e.header
  layout : d.layout = e.layout

/-- Reworded diagrams differ in their interactions and issues alone. -/
theorem Diagram.Reworded.eq_with {d e : Diagram} (h : d.Reworded e) :
    e = { d with interactions := e.interactions, issues := e.issues } := by
  rw [h.participants, h.canvas, h.boxHeight, h.header, h.layout]

namespace Drawing

/-! ### The width of the drawing -/

/-- The estimated width depends on the length of a text alone. -/
theorem estimateWidth_congr {text text' : String} (h : text.length = text'.length)
    (fontSize : Quantity) (weight : Int) :
    estimateWidth text fontSize weight = estimateWidth text' fontSize weight := by
  rw [estimateWidth, estimateWidth, h]

/-- Only loops ask for room, and for as much as their messages are long. -/
theorem widen_reworded (d : Diagram) (width : Quantity) {i j : Interaction} (h : i.Reworded j) :
    widen d width i = widen d width j := by
  have hlength := h.length
  rw [h.eq_with]
  unfold widen
  by_cases hloop : i.direction = .loop
  · simp only [hloop, if_true]
    rw [estimateWidth_congr (hlength hloop)]
  · simp only [hloop, if_false]

theorem foldlM_congr_of_forall₂ {ε α β γ : Type} {T : β → γ → Prop} {f : α → β → Except ε α}
    {g : α → γ → Except ε α} {xs : List β} {ys : List γ} (h : List.Forall₂ T xs ys)
    (hfg : ∀ a x y, T x y → f a x = g a y) (a : α) : xs.foldlM f a = ys.foldlM g a := by
  induction h generalizing a with
  | nil => rfl
  | @cons x y xs ys hxy _ ih =>
      rw [List.foldlM_cons, List.foldlM_cons, hfg a x y hxy]
      congr 1
      funext b
      exact ih b

/-- The messages of loops keep their lengths, so there is as much room for them. -/
theorem contentWidth_reworded (d : Diagram) (issues : List Line) {js : List Interaction}
    (h : List.Forall₂ Interaction.Reworded d.interactions js) :
    contentWidth d = contentWidth { d with interactions := js, issues := issues } :=
  foldlM_congr_of_forall₂ h (fun width _ _ hij => widen_reworded d width hij) _

/-! ### Arrows -/

variable {d : Diagram} {tokens : List Token}

/-- A stroke with a label, or two without. -/
theorem twins_messageLabel {stroke : String} (hname : IsName stroke)
    (hstroke : stroke = "line" ∨ stroke = "polyline") {shape placing : List Attribute}
    (hshape : TameAttributes shape) (hplacing : TameAttributes placing)
    {message message' : Option String}
    (h : (message.bind nonempty?).isSome = (message'.bind nonempty?).isSome) :
    Twins (.void stroke shape :: messageLabel layout message placing)
      (.void stroke shape :: messageLabel layout message' placing) := by
  obtain ⟨style, hstyle, hcases⟩ := messageLabel_cases layout hplacing
  rcases hcases message with ⟨hm, hlabel⟩ | ⟨text, hm, hlabel⟩
  · rcases hcases message' with ⟨-, hlabel'⟩ | ⟨text', hm', -⟩
    · rw [hlabel, hlabel']
      exact Twins.closed (Closed.void stroke shape)
    · simp [hm, hm'] at h
  · rcases hcases message' with ⟨hm', -⟩ | ⟨text', -, hlabel'⟩
    · simp [hm, hm'] at h
    · rw [hlabel, hlabel']
      exact Twins.label hname hstroke hshape.plain hstyle.plain text text'

section

variable {message message' : Option String}
  (h : (message.bind nonempty?).isSome = (message'.bind nonempty?).isSome) (x1 x2 y : Quantity)

include h

theorem concur_loopArrow :
    Concur Twins (loopArrow layout x1 x2 y message) (loopArrow layout x1 x2 y message') := by
  unfold loopArrow
  refine .bind_same fun right _ => .bind_same fun bottom _ => .bind_same fun labelX _ => ?_
  refine .bind_same fun half _ => .bind_same fun labelY _ => .ok ?_
  refine twins_messageLabel (by decide) (.inr rfl) (tame_loop x1 x2 right y bottom) ?_ h
  simp +decide [TameAttributes, tameAttribute_iff, Quantity.tame_text, baselineShift]

theorem concur_straightArrow :
    Concur Twins (straightArrow layout x1 x2 y message)
      (straightArrow layout x1 x2 y message') := by
  unfold straightArrow
  refine .bind_same fun sum _ => .bind_same fun middle _ => .bind_same fun above _ => .ok ?_
  refine twins_messageLabel (by decide) (.inl rfl) (tame_straight x1 x2 y) ?_ h
  simp +decide [TameAttributes, tameAttribute_iff, Quantity.tame_text]

end

theorem concur_arrow {i j : Interaction} (h : i.Reworded j) :
    Concur Twins (arrow d i) (arrow d j) := by
  have hlabelled := h.labelled
  rw [h.eq_with]
  unfold arrow
  refine .bind_same fun x1 _ => .bind_same fun x2 _ => .bind_same fun y _ => ?_
  by_cases hloop : i.direction = .loop
  · simp only [hloop, if_true]
    exact concur_loopArrow hlabelled x1 x2 y
  · simp only [hloop, if_false]
    exact concur_straightArrow hlabelled x1 x2 y

/-! ### The other pieces

Each of them ends with a tag, whatever is in it. -/

theorem closed_arrowMarker (h : arrowMarker = .ok tokens) : Closed tokens := by
  obtain ⟨marker, polygon, -, -, rfl⟩ := arrowMarker_eq_ok h
  exact (((((Closed.finish _).cons _).cons _).cons _).cons _).cons _

theorem closed_drawHeader {y : Quantity} {lines : List HeaderLine} {pieces : List (List Token)}
    (h : drawHeader layout y lines = .ok pieces) : ∀ piece ∈ pieces, Closed piece := by
  have hclosed : List.Forall₂ (fun piece (_ : HeaderLine) => Closed piece ∧ True) pieces lines := by
    refine (drawHeader_eq_ok h).imp ?_
    rintro _ line ⟨placing, -, rfl⟩
    exact ⟨Closed.labelled _ _ _, trivial⟩
  exact ((List.forall₂_and_left _ _).mp hclosed).1

theorem closed_lifeline {p : Participant} (h : lifeline d p = .ok tokens) : Closed tokens := by
  obtain ⟨_, _, _, _, shape, -, -, -, -, -, rfl, -⟩ := lifeline_eq_ok h
  exact Closed.void _ shape

theorem closed_activation {p : Participant} (h : activation d p = .ok tokens) : Closed tokens := by
  obtain ⟨shape, -, rfl⟩ := activation_eq_ok h
  exact Closed.void _ shape

theorem closed_participantBox {p : Participant} (h : participantBox d p = .ok tokens) :
    Closed tokens := by
  obtain ⟨_, _, _, _, -, -, -, -, rfl, -⟩ := participantBox_eq_ok h
  exact ((Closed.labelled _ _ _).cons _).cons _

/-- What does not depend on the messages is drawn alike. -/
theorem twins_mapM {draw : Participant → Calc (List Token)}
    (hdraw : ∀ p tokens, draw p = .ok tokens → Closed tokens) {ps : List Participant}
    {pieces : List (List Token)} (h : ps.mapM draw = .ok pieces) :
    List.Forall₂ Twins pieces pieces := by
  have hall := mapM_eq_ok.mp h
  induction hall with
  | nil => exact .nil
  | @cons p piece ps pieces hp hps ih =>
      exact .cons (Twins.closed (hdraw p piece hp)) (ih (mapM_eq_ok.mpr hps))

/-! ### The whole -/

/-- Reworded diagrams are drawn as twins, or fail alike. -/
theorem concur_tokens (d : Diagram) (issues : List Line) {js : List Interaction}
    (h : List.Forall₂ Interaction.Reworded d.interactions js) (palette : Palette) (font : String)
    (transparent : Bool) :
    Concur Twins (Drawing.tokens d palette font transparent)
      (Drawing.tokens { d with interactions := js, issues := issues } palette font transparent) := by
  unfold Drawing.tokens
  rw [← contentWidth_reworded d issues h]
  refine .bind_same fun band _ => .bind_same fun width _ => .bind_same fun height _ => ?_
  refine .bind_same fun marker hmarker => .bind_same fun headerText hheader => ?_
  refine .bind_same fun lifelines hlifelines => .bind_same fun activations hactivations => ?_
  refine (Concur.mapM h fun i j => concur_arrow).bind fun arrows arrows' harrows => ?_
  refine .bind_same fun boxes hboxes => .ok (Twins.onLines ?_)
  -- the pieces one after the other; only the arrows are told apart
  have hheader : List.Forall₂ Twins headerText headerText := List.forall₂_same.mpr
    fun piece hpiece => Twins.closed (closed_drawHeader hheader piece hpiece)
  have hlines := twins_mapM (fun p tokens => closed_lifeline) hlifelines
  have hspans := twins_mapM (fun p tokens => closed_activation) hactivations
  have hboxes := twins_mapM (fun p tokens => closed_participantBox) hboxes
  refine List.rel_append (List.rel_append (List.rel_append (List.rel_append (List.rel_append
    (List.rel_append (List.rel_append ?_ hheader) ?_) hlines) hspans) harrows) hboxes) ?_
  · refine .cons (Twins.closed (Closed.start _ _)) (.cons (Twins.closed ?_) ?_)
    · exact ((Closed.finish _).cons _).cons _
    refine .cons (Twins.closed (Closed.start _ _)) ?_
    refine .cons (Twins.closed (closed_arrowMarker hmarker)) ?_
    exact .cons (Twins.closed (Closed.finish _)) .nil
  · exact .cons (Twins.closed (Closed.start _ _)) .nil
  · exact .cons (Twins.closed (Closed.finish _)) (.cons (Twins.closed (Closed.finish _)) .nil)

end Drawing

namespace Diagram.Reworded

variable {d e : Diagram}

/-- The drawings of reworded diagrams are the same but for the messages. -/
theorem concur_draw (h : d.Reworded e) (palette : Palette) (font : String) (transparent : Bool) :
    Concur SameErased (d.draw palette font transparent) (e.draw palette font transparent) := by
  rw [h.eq_with, draw, draw]
  refine (Drawing.concur_tokens d e.issues h.interactions palette font transparent).bind ?_
  exact fun tokens tokens' htwins => .ok htwins.sameErased

theorem concur_picture (h : d.Reworded e) (appearance : Appearance) :
    Concur SameErased (d.picture appearance) (e.picture appearance) := by
  rw [picture, picture, ← h.header]
  exact (h.concur_draw _ _ _).mapError _

end Diagram.Reworded

end SequenceChart
