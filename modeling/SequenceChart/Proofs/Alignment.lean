/-
SequenceChart/Proofs/Alignment.lean

Lifelines, boxes and arrows of a drawing stand in line.

A drawing ends with its figures: a lifeline and a box for every participant, and
an arrow for every interaction (`Figures.Depict`).  Where a lifeline is drawn is
calculated anew for each of them, once from the participant for its lifeline,
once more for the name in its box, and for an arrow from the participants that
the interaction holds.  Main result: as they are printed, these numbers are one
number text wherever one participant is meant, in whole numbers or not
(`Diagram.aligned_draw`).

Every piece of a drawing is read on its own, and the interactions of a coherent
diagram hold the participants themselves, so that an index leads from an arrow
to the lifelines at its ends.
-/
import SequenceChart.Proofs.Coherence
import SequenceChart.Proofs.Markup.Attribute
import SequenceChart.Proofs.Piece
import SequenceChart.Proofs.Wording

namespace SequenceChart

open Markup

/-! ### Lines and where they run -/

/-- The horizontal coordinates of points, as they are written. -/
def Markup.abscissas (points : String) : List String :=
  (points.toList.splitOn ' ').map fun point => String.ofList (point.takeWhile (· ≠ ','))

namespace Markup.Tag

/-- The tag draws a level line between two places. -/
def RunsLevel (tag : Tag) (x1 x2 : String) : Prop :=
  tag.name = "line" ∧ tag.attribute? "x1" = some x1 ∧ tag.attribute? "x2" = some x2 ∧
    ∃ y, tag.attribute? "y1" = some y ∧ tag.attribute? "y2" = some y

/-- The tag draws a line of several points, from one place to another. -/
def RunsThrough (tag : Tag) (x1 x2 : String) : Prop :=
  tag.name = "polyline" ∧ ∃ points, tag.attribute? "points" = some points ∧
    (abscissas points).head? = some x1 ∧ (abscissas points).getLast? = some x2

end Markup.Tag

namespace Drawing

variable {d : Diagram} {layout : Layout} {tokens : List Token}

theorem blank_not_mem_point (x y : Quantity) : ' ' ∉ (point x y).toList := by
  have hnumber : ∀ q : Quantity, ' ' ∉ q.text.toList := fun q => q.not_mem_text (by decide)
  simp [point, hnumber]

/-- The abscissa of a point stands before its comma. -/
theorem takeWhile_point (x y : Quantity) :
    String.ofList ((point x y).toList.takeWhile (· ≠ ',')) = x.text := by
  have hx : ∀ c ∈ x.text.toList, decide (c ≠ ',') = true := by
    intro c hc
    have hcomma : ',' ∉ x.text.toList := x.not_mem_text (by decide)
    simpa using fun h : c = ',' => hcomma (h ▸ hc)
  have hpoint : (point x y).toList = x.text.toList ++ ',' :: y.text.toList := by simp [point]
  rw [hpoint, List.takeWhile_append_of_pos hx, List.takeWhile_cons_of_neg (by simp),
    List.append_nil, String.ofList_toList]

/-- Of points that were written the horizontal coordinates are read back. -/
theorem abscissas_points {points : List (Quantity × Quantity)} (h : points ≠ []) :
    abscissas (String.intercalate " " (points.map fun p => point p.1 p.2)) =
      points.map fun p => p.1.text := by
  have hblank : " ".toList = [' '] := by decide
  rw [abscissas, String.toList_intercalate, hblank, List.splitOn_intercalate]
  · simp only [List.map_map]
    exact List.map_congr_left fun p _ => takeWhile_point p.1 p.2
  · simp only [List.map_map, List.mem_map]
    rintro _ ⟨p, -, rfl⟩
    exact blank_not_mem_point p.1 p.2
  · simpa using h

/-! ### What a figure shows -/

/-- An upright line where the lifeline of a participant is. -/
def IsLifeline (d : Diagram) (p : Participant) (figure : List Tag) : Prop :=
  ∃ line x, figure = [line] ∧ line.name = "line" ∧ d.lifelineX p = .ok x ∧
    line.attribute? "x1" = some x.text ∧ line.attribute? "x2" = some x.text

/-- A box with the name of a participant, in the middle of the box. -/
def IsBox (d : Diagram) (p : Participant) (figure : List Tag) : Prop :=
  ∃ frame label ending x, figure = [frame, label, ending] ∧
    figure.map Tag.name = ["rect", "text", "/text"] ∧ d.lifelineX p = .ok x ∧
    label.attribute? "x" = some x.text ∧ unescapeChars label.data = p.name.toList

/-- A line between the lifelines of an interaction, with a label or without. -/
def IsArrow (d : Diagram) (i : Interaction) (figure : List Tag) : Prop :=
  ∃ stroke label x1 x2, figure = stroke :: label ∧ figure.map Tag.name = i.outline ∧
    d.lifelineX i.sender = .ok x1 ∧ d.lifelineX i.receiver = .ok x2 ∧
    (if i.direction = .loop then stroke.RunsThrough x1.text x2.text
      else stroke.RunsLevel x1.text x2.text)

theorem reads_lifeline {p : Participant} (h : lifeline d p = .ok tokens) :
    Reads tokens (IsLifeline d p) := by
  obtain ⟨x, _, _, _, shape, hx, -, -, -, hshape, rfl, hx1, -, hx2, -⟩ := lifeline_eq_ok h
  refine (Reads.void (by decide) (by decide) hshape.legible).mono ?_
  rintro _ ⟨line, rfl, hline⟩
  exact ⟨line, x, rfl, hline.name, hx, (hline.value _).trans hx1, (hline.value _).trans hx2⟩

theorem reads_activation {p : Participant} (h : activation d p = .ok tokens) :
    Reads tokens fun own => own.map Tag.name = ["rect"] := by
  obtain ⟨shape, hshape, rfl⟩ := activation_eq_ok h
  refine (Reads.void (by decide) (by decide) hshape.legible).mono ?_
  rintro _ ⟨span, rfl, hspan⟩
  rw [List.map_singleton, hspan.name]

/-- The name of a participant is written at its lifeline. -/
theorem reads_participantBox {p : Participant} (h : participantBox d p = .ok tokens) :
    Reads tokens (IsBox d p) := by
  obtain ⟨_, x, shape, placing, -, hx, hshape, hplacing, rfl, -, -, hmiddle⟩ :=
    participantBox_eq_ok h
  refine ((Reads.void (by decide) (by decide) hshape.legible).append
    (Reads.data_cons (by decide) (Reads.labelled hplacing.legible p.name))).mono ?_
  rintro _ ⟨_, _, rfl, ⟨frame, rfl, hframe⟩, label, ending, rfl, hlabel, hdata, hending⟩
  refine ⟨frame, label, ending, x, rfl, ?_, hx, (hlabel.value _).trans hmiddle, hdata⟩
  simp [hframe.name, hlabel.name, hending]

theorem reads_messageLabel (message : Option String) {placing : List Attribute}
    (h : TameAttributes placing) :
    Reads (messageLabel layout message placing) fun own => own.map Tag.name =
      if message.getD "" = "" then [] else ["text", "/text"] := by
  obtain ⟨style, hstyle, hcases⟩ := messageLabel_cases layout h
  rcases hcases message with ⟨hnone, hlabel⟩ | ⟨text, hsome, hlabel⟩
  · rw [hlabel, if_pos (bind_nonempty?_eq_none_iff.mp hnone)]
    exact Reads.nil.mono fun own hown => by rw [hown]; rfl
  · have hnonempty : ¬message.getD "" = "" := by
      rw [← bind_nonempty?_eq_none_iff, hsome]
      exact Option.some_ne_none text
    rw [hlabel, if_neg hnonempty]
    refine (Reads.data_cons (by decide) (Reads.labelled hstyle.legible text)).mono ?_
    rintro _ ⟨label, ending, rfl, hname, -, hending⟩
    simp [hname.name, hending]

/-- The tags of an arrow name the places of its ends as the lifelines do. -/
theorem reads_arrow {i : Interaction} (h : arrow d i = .ok tokens) :
    Reads tokens (IsArrow d i) := by
  obtain ⟨x1, x2, y, name, shape, placing, hx1, hx2, -, hshape, hplacing, rfl, hends⟩ :=
    arrow_eq_ok h
  have hname : IsName name ∧ '"' ∉ name.toList := by
    rcases hends with ⟨-, rfl, -⟩ | ⟨-, rfl, -⟩ <;> decide
  refine ((Reads.void hname.1 hname.2 hshape.legible).append
    (reads_messageLabel i.message hplacing)).mono ?_
  rintro _ ⟨_, label, rfl, ⟨stroke, rfl, hstroke⟩, hlabel⟩
  refine ⟨stroke, label, x1, x2, rfl, ?_, hx1, hx2, ?_⟩
  · rw [List.singleton_append, List.map_cons, hstroke.name, hlabel, Interaction.outline]
    rcases hends with ⟨hloop, rfl, -⟩ | ⟨hloop, rfl, -⟩
    · rw [if_pos hloop]
    · rw [if_neg hloop]
  -- a loop has its ends in one list of points, a straight arrow in four attributes
  rcases hends with ⟨hloop, rfl, right, bottom, hpoints⟩ | ⟨hloop, rfl, hxs, hys, hxe, hye⟩
  · rw [if_pos hloop]
    have hread := abscissas_points
      (by simp : [(x1, y), (right, y), (right, bottom), (x2, bottom)] ≠ [])
    refine ⟨hstroke.name, _, (hstroke.value _).trans hpoints, ?_, ?_⟩
    · exact congrArg List.head? hread
    · exact congrArg List.getLast? hread
  · rw [if_neg hloop]
    exact ⟨hstroke.name, (hstroke.value _).trans hxs, (hstroke.value _).trans hxe, y.text,
      (hstroke.value _).trans hys, (hstroke.value _).trans hye⟩

end Drawing

/-! ### The figures of a drawing -/

/-- What is drawn for the participants and the interactions, each figure with
its own tags. -/
@[ext]
structure Figures where
  lifelines : List (List Tag)
  spans : List (List Tag)
  arrows : List (List Tag)
  boxes : List (List Tag)

namespace Figures

variable {d : Diagram} {f g : Figures} {tags : List Tag}

/-- The figures in the order in which they are drawn. -/
def all (f : Figures) : List (List Tag) :=
  f.lifelines ++ f.spans ++ f.arrows ++ f.boxes

/-- The tags of a drawing end with a group that has the figures of a diagram in
their order. -/
structure Depict (f : Figures) (d : Diagram) (tags : List Tag) : Prop where
  group : ∃ front opening closing, tags = front ++ opening :: (f.all.flatten ++ closing) ∧
    opening.name = "g" ∧ closing.map Tag.name = ["/g", "/svg"]
  lifelines : f.lifelines.map (List.map Tag.name) = d.participants.map fun _ => ["line"]
  spans : f.spans.map (List.map Tag.name) = d.participants.map fun _ => ["rect"]
  arrows : f.arrows.map (List.map Tag.name) = d.interactions.map Interaction.outline
  boxes : f.boxes.map (List.map Tag.name) = d.participants.map fun _ => ["rect", "text", "/text"]

/-- The lifeline with the index of a participant stands at a number text. -/
def StandsAt (f : Figures) (p : Participant) (x : String) : Prop :=
  ∃ (n : Nat) (line : Tag), p.index = n ∧ f.lifelines[n]? = some [line] ∧
    line.attribute? "x1" = some x ∧ line.attribute? "x2" = some x

/-- Boxes and arrows stand in line with the lifelines. -/
structure Aligned (f : Figures) (d : Diagram) : Prop where
  /-- The box of a participant has its index as well, and its name is written at
  its lifeline. -/
  box : ∀ (n : Nat) p, d.participants[n]? = some p → p.index = n ∧
    ∃ x frame label ending, d.lifelineX p = .ok x ∧ f.StandsAt p x.text ∧
      f.boxes[n]? = some [frame, label, ending] ∧ label.attribute? "x" = some x.text ∧
      unescapeChars label.data = p.name.toList
  arrow : ∀ (n : Nat) i, d.interactions[n]? = some i → i.sender.name ≠ i.receiver.name →
    ∃ stroke label x1 x2, f.arrows[n]? = some (stroke :: label) ∧ f.StandsAt i.sender x1 ∧
      f.StandsAt i.receiver x2 ∧ stroke.RunsLevel x1 x2
  loop : ∀ (n : Nat) i, d.interactions[n]? = some i → i.sender.name = i.receiver.name →
    ∃ stroke label x, f.arrows[n]? = some (stroke :: label) ∧ f.StandsAt i.sender x ∧
      stroke.RunsThrough x x

/-- The names of the tags tell where each figure ends, so there is one way to
take a drawing apart. -/
theorem Depict.unique (h : f.Depict d tags) (h' : g.Depict d tags) : f = g := by
  have hlifelines := h.lifelines.trans h'.lifelines.symm
  have hspans := h.spans.trans h'.spans.symm
  have harrows := h.arrows.trans h'.arrows.symm
  have hboxes := h.boxes.trans h'.boxes.symm
  have hsizes : f.all.map List.length = g.all.map List.length := by
    have hall : f.all.map (List.map Tag.name) = g.all.map (List.map Tag.name) := by
      simp only [all, List.map_append, hlifelines, hspans, harrows, hboxes]
    have hlengths := congrArg (List.map List.length) hall
    simpa only [List.map_map, Function.comp_def, List.length_map] using hlengths
  obtain ⟨front, opening, closing, htags, -, hclosing⟩ := h.group
  obtain ⟨front', opening', closing', htags', -, hclosing'⟩ := h'.group
  have hflat : f.all.flatten.length = g.all.flatten.length := by
    rw [List.length_flatten, List.length_flatten, hsizes]
  have hend : closing.length = closing'.length := by
    simpa using congrArg List.length (hclosing.trans hclosing'.symm)
  obtain ⟨-, hgroup⟩ := List.append_inj' (htags.symm.trans htags') (by simp [hflat, hend])
  obtain ⟨hflatten, -⟩ := List.append_inj (List.cons.inj hgroup).2 hflat
  have hall : f.all = g.all := List.eq_iff_flatten_eq.mpr ⟨hflatten, hsizes⟩
  -- and the lists of figures are as long as those of what they are drawn for
  have length_of_names : ∀ {xs ys : List (List Tag)},
      xs.map (List.map Tag.name) = ys.map (List.map Tag.name) → xs.length = ys.length :=
    fun hnames => by simpa using congrArg List.length hnames
  obtain ⟨hall, hboxes⟩ := List.append_inj' hall (length_of_names hboxes)
  obtain ⟨hall, harrows⟩ := List.append_inj' hall (length_of_names harrows)
  obtain ⟨hlifelines, hspans⟩ := List.append_inj' hall (length_of_names hspans)
  exact Figures.ext hlifelines hspans harrows hboxes

/-- The figures show what they are drawn for. -/
structure Show (f : Figures) (d : Diagram) : Prop where
  lifelines : List.Forall₂ (Drawing.IsLifeline d) d.participants f.lifelines
  spans : List.Forall₂ (fun _ figure => figure.map Tag.name = ["rect"]) d.participants f.spans
  arrows : List.Forall₂ (Drawing.IsArrow d) d.interactions f.arrows
  boxes : List.Forall₂ (Drawing.IsBox d) d.participants f.boxes

/-- Figures that show a diagram depict it, if they fill the group of a drawing. -/
theorem Show.depict (h : f.Show d)
    (hgroup : ∃ front opening closing, tags = front ++ opening :: (f.all.flatten ++ closing) ∧
      opening.name = "g" ∧ closing.map Tag.name = ["/g", "/svg"]) : f.Depict d tags := by
  -- the names of a list of figures are those of each figure in turn
  have named : ∀ {α : Type} {names : α → List String} {xs : List α} {figures : List (List Tag)},
      List.Forall₂ (fun x figure => figure.map Tag.name = names x) xs figures →
        figures.map (List.map Tag.name) = xs.map names :=
    fun h => map_eq_map_iff_forall₂.mpr h.flip
  refine ⟨hgroup, named (h.lifelines.imp ?_), named h.spans, named (h.arrows.imp ?_),
    named (h.boxes.imp ?_)⟩
  · rintro p _ ⟨line, x, rfl, hname, -⟩
    rw [List.map_singleton, hname]
  · rintro i figure ⟨_, _, _, _, _, hnames, -⟩
    exact hnames
  · rintro p figure ⟨_, _, _, _, _, hnames, -⟩
    exact hnames

end Figures

/-- What is related to the elements of a list, one by one, is found in their
places. -/
theorem exists_getElem?_of_forall₂ {α β : Type} {R : α → β → Prop} {xs : List α} {ys : List β}
    (h : List.Forall₂ R xs ys) {n : Nat} {x : α} (hx : xs[n]? = some x) :
    ∃ y, ys[n]? = some y ∧ R x y := by
  obtain ⟨hn, rfl⟩ := List.getElem?_eq_some_iff.mp hx
  have hn' : n < ys.length := h.length_eq ▸ hn
  exact ⟨ys[n], List.getElem?_eq_getElem hn', h.get hn hn'⟩

namespace Drawing

variable {d : Diagram} {tokens : List Token}

/-- Behind whatever a drawing starts with, its figures are read one after the
other. -/
theorem reads_tokens {palette : Palette} {font : String} {transparent : Bool}
    (h : Drawing.tokens d palette font transparent = .ok tokens) :
    Reads tokens fun tags => ∃ f : Figures, f.Depict d tags ∧ f.Show d := by
  simp only [Drawing.tokens, bind_eq_ok] at h
  obtain ⟨band, -, width, -, height, -, marker, hmarker, headerText, hheader, lifelines, hlifelines,
    activations, hactivations, arrows, harrows, boxes, hboxes, h⟩ := h
  obtain rfl := Except.ok.inj h
  -- of what stands before the group only the end matters, which is outside of any tag
  have hroot : Closed [rootTag { width := width, height := height } palette transparent] :=
    Closed.start _ _
  have hfront : ∀ piece ∈ [styleBlock font, [.start "defs" []], marker, [.finish "defs"]] ++
      headerText, Closed piece := by
    refine List.forall_mem_append.mpr ⟨?_, closed_drawHeader hheader⟩
    simp only [List.forall_mem_cons, List.not_mem_nil, false_implies, implies_true, and_true]
    exact ⟨((Closed.finish _).cons _).cons _, Closed.start _ _, closed_arrowMarker hmarker,
      Closed.finish _⟩
  have hshift : PlainAttributes [("transform", "translate(0," ++ band.text ++ ")")] := by
    simp [PlainAttributes, Quantity.plain_text]
  -- the group, its figures and what closes it are read tag by tag
  have hopening := Reads.data_cons (by decide : '<' ∉ "\n".toList)
    (Reads.start (by decide : IsName "g") hshift)
  have hclosing := (Reads.data_cons (by decide : '<' ∉ "\n".toList)
    (Reads.finish (by decide : IsName "g"))).append
    (Reads.data_cons (by decide : '<' ∉ "\n".toList) (Reads.finish (by decide : IsName "svg")))
  have hfigures := (((Reads.mapM (fun _ _ => reads_lifeline) hlifelines).append
    (Reads.mapM (fun _ _ => reads_activation) hactivations)).append
    (Reads.mapM (fun _ _ => reads_arrow) harrows)).append
    (Reads.mapM (fun _ _ => reads_participantBox) hboxes)
  have hread := (((Reads.closed hroot).append (Reads.closedLines hfront)).append hopening).append
    (hfigures.append hclosing)
  show Reads (onLines ([rootTag { width := width, height := height } palette transparent] ::
    (([styleBlock font, [.start "defs" []], marker, [.finish "defs"]] ++ headerText) ++
      [[.start "g" [("transform", "translate(0," ++ band.text ++ ")")]]] ++
      lifelines ++ activations ++ arrows ++ boxes ++ [[.finish "g"], [.finish "svg"]]))) _
  rw [onLines_cons]
  simp only [List.flatMap_append, List.append_assoc] at hread ⊢
  refine hread.mono ?_
  rintro _ ⟨_, _, rfl, ⟨front, openings, rfl, -, hopenings⟩, _, closing, rfl,
    ⟨_, _, rfl, ⟨_, _, rfl, ⟨_, _, rfl, ⟨lines, rfl, hlines⟩, spans, rfl, hspans⟩,
      strokes, rfl, hstrokes⟩, frames, rfl, hframes⟩, hclosing⟩
  have hshow : Figures.Show ⟨lines, spans, strokes, frames⟩ d :=
    ⟨hlines, hspans, hstrokes, hframes⟩
  obtain ⟨opening, rfl, hopening⟩ := List.map_eq_singleton_iff.mp hopenings
  refine ⟨_, hshow.depict ⟨front, opening, closing, ?_, hopening, ?_⟩, hshow⟩
  · simp [Figures.all]
  · obtain ⟨first, second, rfl, hfirst, hsecond⟩ := hclosing
    rw [List.map_append, hfirst, hsecond]
    decide

end Drawing

/-! ### Built diagrams -/

namespace Diagram

variable {d : Diagram} {f : Figures}

/-- A participant of a coherent diagram has the lifeline with its index. -/
theorem Coherent.standsAt (hcoherent : d.Coherent) (hshow : f.Show d) {n : Nat} {p : Participant}
    (hp : d.participants[n]? = some p) {x : Quantity} (hx : d.lifelineX p = .ok x) :
    f.StandsAt p x.text := by
  obtain ⟨_, hline, line, x', rfl, -, hx', hx1, hx2⟩ :=
    exists_getElem?_of_forall₂ hshow.lifelines hp
  obtain rfl := Except.ok.inj (hx.symm.trans hx')
  exact ⟨n, line, hcoherent.index n p hp, hline, hx1, hx2⟩

/-- So has an endpoint of an interaction, which is a participant itself. -/
theorem Coherent.standsAt_endpoint (hcoherent : d.Coherent) (hshow : f.Show d) {i : Interaction}
    (hi : i ∈ d.interactions) {p : Participant} (hp : p ∈ i.endpoints) {x : Quantity}
    (hx : d.lifelineX p = .ok x) : f.StandsAt p x.text := by
  obtain ⟨n, -, hn⟩ := hcoherent.endpoint i hi p hp
  exact hcoherent.standsAt hshow hn hx

/-- What a coherent diagram shows is aligned. -/
theorem Coherent.aligned (hcoherent : d.Coherent) (hshow : f.Show d) : f.Aligned d where
  box := by
    intro n p hp
    obtain ⟨_, hbox, frame, label, ending, x, rfl, -, hx, hlabel, hdata⟩ :=
      exists_getElem?_of_forall₂ hshow.boxes hp
    exact ⟨hcoherent.index n p hp, x, frame, label, ending, hx, hcoherent.standsAt hshow hp hx,
      hbox, hlabel, hdata⟩
  arrow := by
    intro n i hi hne
    obtain ⟨_, harrow, stroke, label, x1, x2, rfl, -, hx1, hx2, hstroke⟩ :=
      exists_getElem?_of_forall₂ hshow.arrows hi
    have hmem := List.mem_of_getElem? hi
    rw [if_neg fun hloop => hne ((hcoherent.loop i hmem).mp hloop)] at hstroke
    exact ⟨stroke, label, x1.text, x2.text, harrow,
      hcoherent.standsAt_endpoint hshow hmem List.mem_cons_self hx1,
      hcoherent.standsAt_endpoint hshow hmem (List.mem_cons_of_mem _ List.mem_cons_self) hx2,
      hstroke⟩
  loop := by
    intro n i hi heq
    obtain ⟨_, harrow, stroke, label, x1, x2, rfl, -, hx1, hx2, hstroke⟩ :=
      exists_getElem?_of_forall₂ hshow.arrows hi
    have hmem := List.mem_of_getElem? hi
    rw [if_pos ((hcoherent.loop i hmem).mpr heq)] at hstroke
    -- both ends are the one participant of that name
    have hsame : i.sender = i.receiver := by
      obtain ⟨n, -, hn⟩ := hcoherent.endpoint i hmem i.sender List.mem_cons_self
      obtain ⟨m, -, hm⟩ := hcoherent.endpoint i hmem i.receiver
        (List.mem_cons_of_mem _ List.mem_cons_self)
      exact eq_of_name_eq hcoherent.names_nodup (List.mem_of_getElem? hn)
        (List.mem_of_getElem? hm) heq
    obtain rfl := Except.ok.inj ((hsame ▸ hx1).symm.trans hx2)
    exact ⟨stroke, label, x1.text, harrow,
      hcoherent.standsAt_endpoint hshow hmem List.mem_cons_self hx1, hstroke⟩

/-- **A drawing is aligned.**  Let a diagram be read from a source, with any
measurer and layout, and drawn in any colours and any font.  The tags of the
drawing end with figures for its participants and interactions, in one way.
The lifeline of each participant is upright, and the name in its box is written
at the same number text; an arrow runs level between the number texts of the
lifelines at its ends, and a loop starts and ends at that of its lifeline. -/
theorem aligned_draw {σ : Type} {measurer : Measurer σ} {layout : Layout} {s : σ}
    (h : (∃ source, (ofText measurer layout source s).result = .ok d) ∨
      ∃ texts, (ofLines measurer layout texts s).result = .ok d)
    {palette : Palette} {font : String} {transparent : Bool} {svg : String}
    (hdraw : d.draw palette font transparent = .ok svg) :
    ∃ tags f, cut? svg = some tags ∧ (∀ g : Figures, g.Depict d tags ↔ g = f) ∧ f.Aligned d := by
  -- however the source is given, it is built from lines
  have hcoherent : d.Coherent := by
    obtain ⟨_, h⟩ := exists_build_of_source h
    exact coherent_of_build h
  simp only [draw, bind_eq_ok] at hdraw
  obtain ⟨tokens, htokens, hsvg⟩ := hdraw
  obtain rfl := Except.ok.inj hsvg
  obtain ⟨tags, hcut, f, hdepict, hshow⟩ := (Drawing.reads_tokens htokens).cut?_print
  refine ⟨tags, f, hcut, fun g => ?_, hcoherent.aligned hshow⟩
  constructor
  · exact fun hg => hg.unique hdepict
  · rintro rfl
    exact hdepict

/-- An arrow there and one back, with a loop in between and half a gap; the font
is no name but the start of a tag. -/
theorem aligned_draw_halfGap : ∃ (d : Diagram) (svg : String) (tags : List Tag) (f : Figures),
    (ofText (.fixedWidth 7 20) { horizontalGap := .float 0.5 }
      "Ann -> Bob: hi\nBob -> Bob: again\nBob -> Ann" ()).result = .ok d ∧
      d.draw {} "<line x1=\"0\"" false = .ok svg ∧
      d.participants.map Participant.name = ["Ann", "Bob"] ∧
      d.interactions.map Interaction.direction = [.rightward, .loop, .leftward] ∧
      cut? svg = some tags ∧ (∀ g : Figures, g.Depict d tags ↔ g = f) ∧ f.Aligned d := by
  have hdrawn : (ofText (.fixedWidth 7 20) { horizontalGap := .float 0.5 }
      "Ann -> Bob: hi\nBob -> Bob: again\nBob -> Ann" ()).result.map (fun d =>
        (d.participants.map Participant.name, d.interactions.map Interaction.direction,
          (d.draw {} "<line x1=\"0\"" false).isOk)) =
      .ok (["Ann", "Bob"], [.rightward, .loop, .leftward], true) := by
    decide +kernel
  obtain ⟨d, hd, hdrawn⟩ := map_eq_ok.mp hdrawn
  obtain ⟨hnames, hdirections, hok⟩ : _ ∧ _ ∧ _ := by
    simpa only [Prod.mk.injEq] using hdrawn
  obtain ⟨svg, hsvg⟩ := exists_of_isOk hok
  obtain ⟨tags, f, hcut, hdepict, haligned⟩ := aligned_draw (.inl ⟨_, hd⟩) hsvg
  exact ⟨d, svg, tags, f, hd, hsvg, hnames, hdirections, hcut, hdepict, haligned⟩

end Diagram

end SequenceChart
