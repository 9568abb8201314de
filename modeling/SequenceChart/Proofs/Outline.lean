/-
SequenceChart/Proofs/Outline.lean

What a drawing shows, whatever its labels say.

The drawing of a diagram is cut into tags by a reader that only knows `<` and
`>` (`cut?`).  Which tags it finds depends on the numbers of header lines and
participants, on which interactions are loops and on which have a message, and
on nothing else (`Diagram.outline`); the texts it finds in the `text` elements
are the labels of the diagram as they were given (`Diagram.labels`), those of the
header being its title and one line of author and date (`Header.texts`).  Every
piece of a drawing is shown to be read like this, and the pieces are then put
together.
-/
import SequenceChart.Drawing
import SequenceChart.Proofs.Markup.Character
import SequenceChart.Proofs.Markup.Cut
import SequenceChart.Proofs.Markup.Plain
import SequenceChart.Proofs.Piece
import SequenceChart.Proofs.Run

namespace SequenceChart

open Markup

/-! ### What is expected -/

/-- The tags of an interaction: its arrow, and a label if it has a message. -/
def Interaction.outline (i : Interaction) : List String :=
  (if i.direction = .loop then "polyline" else "line") ::
    if i.message.getD "" = "" then [] else ["text", "/text"]

/-- The message of an interaction, unless it is empty. -/
def Interaction.label? (i : Interaction) : Option String :=
  i.message.bind nonempty?

/-- Nothing is left of a message that is missing or empty. -/
theorem bind_nonempty?_eq_none_iff {message : Option String} :
    message.bind nonempty? = none ↔ message.getD "" = "" := by
  rcases message with - | text
  · simp
  · by_cases hempty : text = "" <;> simp [nonempty?, hempty]

/-- The names of the tags of a drawing, in order. -/
def Diagram.outline (d : Diagram) : List String :=
  ["svg", "style", "/style", "defs", "marker", "polygon", "/marker", "/defs"] ++
    (Drawing.headerLines d.header).flatMap (fun _ => ["text", "/text"]) ++ ["g"] ++
    d.participants.map (fun _ => "line") ++ d.participants.map (fun _ => "rect") ++
    d.interactions.flatMap Interaction.outline ++
    d.participants.flatMap (fun _ => ["rect", "text", "/text"]) ++ ["/g", "/svg"]

/-- The texts of a drawing, in order: the header, the messages and the names. -/
def Diagram.labels (d : Diagram) : List String :=
  (Drawing.headerLines d.header).map Drawing.HeaderLine.text ++
    d.interactions.filterMap Interaction.label? ++ d.participants.map Participant.name

/-! ### The texts of the header -/

/-- The texts of the header band: the title, and author and date with a dot
between them.  What is empty is left out. -/
def Header.texts (header : Header) : List String :=
  (header.title.filter (· ≠ "")).toList ++
    match header.author.filter (· ≠ ""), header.date.filter (· ≠ "") with
    | some author, some date => [author ++ " · " ++ date]
    | some author, none => [author]
    | none, some date => [date]
    | none, none => []

theorem bind_nonempty?_eq_filter (field : Option String) :
    field.bind nonempty? = field.filter (· ≠ "") := by
  rcases field with - | text
  · rfl
  · by_cases hempty : text = "" <;> simp [nonempty?, Option.filter, hempty]

theorem nonempty_of_bind_nonempty? {field : Option String} {text : String}
    (h : field.bind nonempty? = some text) : text ≠ "" := by
  rw [bind_nonempty?_eq_filter] at h
  simpa using (Option.filter_eq_some_iff.mp h).2

/-- The lines of the header band are the texts of the header. -/
theorem Drawing.map_text_headerLines (header : Header) :
    (headerLines header).map HeaderLine.text = header.texts := by
  simp only [headerLines, Header.texts, ← bind_nonempty?_eq_filter, List.map_append, List.map_map]
  congr 1
  · exact List.map_id _
  -- one line, unless both of its fields are empty
  rcases hauthor : header.author.bind nonempty? with - | author
  · rcases hdate : header.date.bind nonempty? with - | date
    · simp [hauthor, hdate, nonempty?]
    · simp [hauthor, hdate, nonempty?, nonempty_of_bind_nonempty? hdate]
  · rcases hdate : header.date.bind nonempty? with - | date
    · simp [hauthor, hdate, nonempty?, nonempty_of_bind_nonempty? hauthor]
    · simp [hauthor, hdate, nonempty?, String.intercalate_cons_cons]
/-- The labels of a diagram, that of its header spelled out. -/
theorem Diagram.labels_eq (d : Diagram) :
    d.labels = d.header.texts ++ d.interactions.filterMap Interaction.label? ++
      d.participants.map Participant.name := by
  rw [labels, Drawing.map_text_headerLines]

/-! ### Plain colours -/

/-- Whether no colour of the palette has a character that starts or ends a
tag. -/
structure Palette.IsPlain (palette : Palette) : Prop where
  bg : Plain palette.bg.toList
  fg : Plain palette.fg.toList
  line : ∀ colour ∈ palette.line, Plain colour.toList
  accent : ∀ colour ∈ palette.accent, Plain colour.toList
  muted : ∀ colour ∈ palette.muted, Plain colour.toList
  surface : ∀ colour ∈ palette.surface, Plain colour.toList
  border : ∀ colour ∈ palette.border, Plain colour.toList

namespace Drawing

variable {d : Diagram} {layout : Layout} {tokens : List Token}

/-! ### The root element and the style block -/

theorem plain_lines {sep : String} (hsep : Plain sep.toList) {pieces : List String}
    (h : ∀ piece ∈ pieces, Plain piece.toList) : Plain (String.intercalate sep pieces).toList := by
  intro c hc
  rcases mem_intercalate hc with hc | ⟨piece, hpiece, hc⟩
  · exact hsep c hc
  · exact h piece hpiece c hc

theorem plain_styleVariable {name : String} {value : Option String} (hname : Plain name.toList)
    (h : ∀ v ∈ value, Plain v.toList) : ∀ v ∈ styleVariable name value, Plain v.toList := by
  intro v hv
  rcases value with - | value
  · simp [styleVariable] at hv
  · by_cases hempty : value = ""
    · simp [styleVariable, nonempty?, hempty] at hv
    · obtain rfl : v = "--" ++ name ++ ":" ++ value := by
        simpa [styleVariable, nonempty?, hempty] using hv
      simp [hname, h value rfl]

theorem plain_styleVariables {palette : Palette} (h : palette.IsPlain) :
    ∀ v ∈ styleVariables palette, Plain v.toList := by
  intro v hv
  simp only [styleVariables, List.mem_append, List.mem_cons, List.not_mem_nil, or_false] at hv
  rcases hv with (((((rfl | rfl) | hv) | hv) | hv) | hv) | hv
  · simp [h.bg]
  · simp [h.fg]
  · exact plain_styleVariable (by decide) h.line v hv
  · exact plain_styleVariable (by decide) h.accent v hv
  · exact plain_styleVariable (by decide) h.muted v hv
  · exact plain_styleVariable (by decide) h.surface v hv
  · exact plain_styleVariable (by decide) h.border v hv

/-- The root element starts with one tag, in plain colours. -/
theorem shows_rootTag {palette : Palette} (h : palette.IsPlain) (size : Size)
    (transparent : Bool) : Shows [rootTag size palette transparent] ["svg"] [] := by
  have hstyle : Plain (String.intercalate ";" (styleVariables palette) ++
      if transparent then "" else ";background:var(--bg)").toList := by
    refine Plain.toList_append (plain_lines (by decide) (plain_styleVariables h)) ?_
    cases transparent <;> decide
  unfold rootTag
  -- the style as a whole is plain; how it is put together no longer matters
  generalize String.intercalate ";" (styleVariables palette) ++
    (if transparent then "" else ";background:var(--bg)") = style at hstyle ⊢
  refine Shows.start (by decide) (by decide) ?_
  simp [PlainAttributes, Quantity.plain_text, hstyle]

theorem plain_mixture {percent : String} (h : Plain percent.toList) :
    Plain (mixture percent).toList := by
  have hbefore : Plain "color-mix(in srgb, var(--fg) ".toList := by decide
  exact (hbefore.toList_append h).toList_append (by decide)

theorem plain_derivedVariables : ∀ line ∈ derivedVariables, Plain line.toList := by
  have mixed : ∀ {before percent after : String}, Plain before.toList → Plain percent.toList →
      Plain after.toList → Plain (before ++ mixture percent ++ after).toList := by
    intro before percent after hbefore hpercent hafter
    exact (hbefore.toList_append (plain_mixture hpercent)).toList_append hafter
  intro line hline
  simp only [derivedVariables, List.mem_cons, List.not_mem_nil, or_false] at hline
  rcases hline with rfl | rfl | rfl | rfl | rfl | rfl | rfl | rfl
  · decide
  · decide
  all_goals exact mixed (by decide) (by decide) (by decide)

theorem plain_styleSheet {font : String} (h : Plain font.toList) :
    ∀ line ∈ styleSheet font, Plain line.toList := by
  intro line hline
  simp only [styleSheet, List.mem_append, List.mem_cons, List.not_mem_nil, or_false] at hline
  rcases hline with ((rfl | rfl | rfl) | hline) | rfl
  · refine Plain.toList_append (Plain.toList_append (by decide) ?_) (by decide)
    exact Text.plain_percentEncode font
  · exact Plain.toList_append (Plain.toList_append (by decide) h) (by decide)
  · decide
  · exact plain_derivedVariables line hline
  · decide

theorem shows_styleBlock {font : String} (h : Plain font.toList) :
    Shows (styleBlock font) ["style", "/style"] [] := by
  refine Shows.start_cons (by decide) (by decide) (by simp [PlainAttributes]) ?_
  refine Shows.data_cons ?_ (Shows.finish (by decide))
  have hsheet := plain_lines (by decide : Plain "\n".toList) (plain_styleSheet h)
  exact Plain.toList_append (Plain.toList_append (by decide) hsheet) (by decide)

theorem shows_arrowMarker (h : arrowMarker = .ok tokens) :
    Shows tokens ["marker", "polygon", "/marker"] [] := by
  obtain ⟨marker, polygon, hmarker, hpolygon, rfl⟩ := arrowMarker_eq_ok h
  refine Shows.data_cons (by decide) (Shows.start_cons (by decide) (by decide) hmarker.plain ?_)
  refine Shows.data_cons (by decide) (Shows.void_cons (by decide) (by decide) hpolygon.plain ?_)
  exact Shows.data_cons (by decide) (Shows.finish (by decide))

/-! ### The header band, participants and interactions -/

/-- Every line of the header is a text element. -/
theorem shows_drawHeader {y : Quantity} {lines : List HeaderLine} {pieces : List (List Token)}
    (h : drawHeader layout y lines = .ok pieces) :
    List.Forall₂ (fun piece s => Shows piece s.1 s.2) pieces
      (lines.map fun line => (["text", "/text"], [line.text])) := by
  refine List.forall₂_map_right_iff.mpr ((drawHeader_eq_ok h).imp ?_)
  rintro _ line ⟨placing, hplacing, rfl⟩
  exact Shows.labelled hplacing.plain line.text

theorem shows_lifeline {p : Participant} (h : lifeline d p = .ok tokens) :
    Shows tokens ["line"] [] := by
  obtain ⟨_, _, _, _, shape, -, -, -, -, hshape, rfl, -⟩ := lifeline_eq_ok h
  exact Shows.void (by decide) (by decide) hshape.plain

theorem shows_activation {p : Participant} (h : activation d p = .ok tokens) :
    Shows tokens ["rect"] [] := by
  obtain ⟨shape, hshape, rfl⟩ := activation_eq_ok h
  exact Shows.void (by decide) (by decide) hshape.plain

/-- The box of a participant is a frame and its name. -/
theorem shows_participantBox {p : Participant} (h : participantBox d p = .ok tokens) :
    Shows tokens ["rect", "text", "/text"] [p.name] := by
  obtain ⟨_, _, shape, placing, -, -, hshape, hplacing, rfl, -⟩ := participantBox_eq_ok h
  exact Shows.void_cons (by decide) (by decide) hshape.plain
    (Shows.data_cons (by decide) (Shows.labelled hplacing.plain p.name))

/-- The label of a message is a text element, unless it is empty. -/
theorem shows_messageLabel (message : Option String) {placing : List Attribute}
    (h : TameAttributes placing) :
    Shows (messageLabel layout message placing)
      (if message.getD "" = "" then [] else ["text", "/text"])
      (message.bind nonempty?).toList := by
  obtain ⟨style, hstyle, hcases⟩ := messageLabel_cases layout h
  rcases hcases message with ⟨hnone, hlabel⟩ | ⟨text, hsome, hlabel⟩
  · rw [hlabel, hnone, if_pos (bind_nonempty?_eq_none_iff.mp hnone)]
    exact Shows.nil
  · have hnonempty : ¬message.getD "" = "" := by
      rw [← bind_nonempty?_eq_none_iff, hsome]
      exact Option.some_ne_none text
    rw [hlabel, hsome, if_neg hnonempty]
    exact Shows.data_cons (by decide) (Shows.labelled hstyle.plain text)

/-- The tags of an interaction and its message. -/
theorem shows_arrow {i : Interaction} (h : arrow d i = .ok tokens) :
    Shows tokens i.outline i.label?.toList := by
  obtain ⟨_, _, _, _, shape, placing, -, -, -, hshape, hplacing, rfl, hstroke⟩ := arrow_eq_ok h
  have hlabel := @shows_messageLabel d.layout i.message placing hplacing
  rcases hstroke with ⟨hloop, rfl, -⟩ | ⟨hloop, rfl, -⟩
  · rw [Interaction.outline, if_pos hloop]
    exact Shows.void_cons (by decide) (by decide) hshape.plain hlabel
  · rw [Interaction.outline, if_neg hloop]
    exact Shows.void_cons (by decide) (by decide) hshape.plain hlabel

/-! ### The whole -/

/-- Drawing every element of a list shows what each of them shows. -/
theorem shows_mapM {α : Type} {draw : α → Calc (List Token)} {names texts : α → List String}
    (hdraw : ∀ x tokens, draw x = .ok tokens → Shows tokens (names x) (texts x)) {xs : List α}
    {pieces : List (List Token)} (h : xs.mapM draw = .ok pieces) :
    List.Forall₂ (fun piece s => Shows piece s.1 s.2) pieces
      (xs.map fun x => (names x, texts x)) :=
  forall₂_of_mapM hdraw h

/-- What the lines of a drawing show, one after the other. -/
def shownLines (d : Diagram) : List (List String × List String) :=
  [(["svg"], []), (["style", "/style"], []), (["defs"], []),
    (["marker", "polygon", "/marker"], []), (["/defs"], [])] ++
  (headerLines d.header).map (fun line => (["text", "/text"], [line.text])) ++
  [(["g"], [])] ++
  d.participants.map (fun _ => (["line"], [])) ++
  d.participants.map (fun _ => (["rect"], [])) ++
  d.interactions.map (fun i => (i.outline, i.label?.toList)) ++
  d.participants.map (fun p => (["rect", "text", "/text"], [p.name])) ++
  [(["/g"], []), (["/svg"], [])]

theorem flatMap_fst_shownLines (d : Diagram) : (shownLines d).flatMap Prod.fst = d.outline := by
  simp only [shownLines, Diagram.outline, List.flatMap_append, List.flatMap_map]
  rw [List.map_eq_flatMap, List.map_eq_flatMap]
  rfl

theorem flatMap_snd_shownLines (d : Diagram) : (shownLines d).flatMap Prod.snd = d.labels := by
  have hnothing : ∀ ps : List Participant, ps.flatMap (fun _ => ([] : List String)) = [] := by
    intro ps
    rw [List.flatMap_eq_nil_iff]
    intro _ _
    rfl
  simp only [shownLines, Diagram.labels, List.flatMap_append, List.flatMap_map, hnothing]
  rw [List.map_eq_flatMap, List.map_eq_flatMap, List.filterMap_eq_flatMap_toList]
  simp

/-- A drawing shows its outline and its labels. -/
theorem shows_tokens {palette : Palette} (hpalette : palette.IsPlain) {font : String}
    (hfont : Plain font.toList) {transparent : Bool}
    (h : Drawing.tokens d palette font transparent = .ok tokens) :
    Shows tokens d.outline d.labels := by
  simp only [Drawing.tokens, bind_eq_ok] at h
  obtain ⟨band, -, width, -, height, -, marker, hmarker, headerText, hheader, lifelines, hlifelines,
    activations, hactivations, arrows, harrows, boxes, hboxes, h⟩ := h
  obtain rfl := Except.ok.inj h
  rw [← flatMap_fst_shownLines, ← flatMap_snd_shownLines]
  -- now line by line, in the order in which the pieces are put together
  refine Shows.onLines ?_
  have hdefs : PlainAttributes [] := by simp [PlainAttributes]
  have hshift : PlainAttributes [("transform", "translate(0," ++ band.text ++ ")")] := by
    simp [PlainAttributes, Quantity.plain_text]
  have hlines := shows_mapM (fun p tokens => shows_lifeline) hlifelines
  have hspans := shows_mapM (fun p tokens => shows_activation) hactivations
  have harrows := shows_mapM (fun i tokens => shows_arrow) harrows
  have hboxes := shows_mapM (fun p tokens => shows_participantBox) hboxes
  refine List.rel_append (List.rel_append (List.rel_append (List.rel_append (List.rel_append
    (List.rel_append (List.rel_append ?_ (shows_drawHeader hheader)) ?_) hlines) hspans)
    harrows) hboxes) ?_
  · refine .cons (shows_rootTag hpalette _ _) (.cons (shows_styleBlock hfont) ?_)
    refine .cons (Shows.start (by decide) (by decide) hdefs) ?_
    exact .cons (shows_arrowMarker hmarker) (.cons (Shows.finish (by decide)) .nil)
  · exact .cons (Shows.start (by decide) (by decide) hshift) .nil
  · exact .cons (Shows.finish (by decide))
      (.cons (Shows.finish (by decide)) .nil)

end Drawing

/-- **No label changes the structure of a drawing, and none is lost or
altered.**  Where a diagram can be drawn in a font and colours that are free
of markup, the drawing is cut into exactly the tags of its outline, and its
`text` elements hold exactly its labels, whatever characters these have. -/
theorem Diagram.cut?_draw {d : Diagram} {palette : Palette} {font : String} {transparent : Bool}
    {svg : String} (hpalette : palette.IsPlain) (hfont : Plain font.toList)
    (h : d.draw palette font transparent = .ok svg) :
    ∃ tags, cut? svg = some tags ∧ tags.map Tag.name = d.outline ∧ textsOf tags = d.labels := by
  simp only [draw, bind_eq_ok] at h
  obtain ⟨tokens, htokens, h⟩ := h
  obtain rfl := Except.ok.inj h
  exact cut?_print (Drawing.shows_tokens hpalette hfont htokens)

/-- A diagram put together by hand whose labels are full of markup. -/
def Diagram.hostile : Diagram :=
  let p : Participant :=
    { name := "</text><script>", index := 0, firstRow := 0, lastRow := 0, x := .int 10
      labelWidth := .int 40, labelHeight := .int 20 }
  { participants := [p]
    interactions :=
      [{ row := 0, sender := p, receiver := p, direction := .loop, message := some "a &lt; \"b\"" },
       { row := 1, sender := p, receiver := p, direction := .rightward, message := some "" }]
    header := { title := some "<svg>", author := some "x & y", date := some "<today>" } }

/-- Labels that look like tags and like entities are read back as they are. -/
theorem Diagram.cut?_draw_hostile :
    ∃ svg tags, Diagram.hostile.draw {} "Inter" false = .ok svg ∧ cut? svg = some tags ∧
      tags.map Tag.name =
        ["svg", "style", "/style", "defs", "marker", "polygon", "/marker", "/defs",
         "text", "/text", "text", "/text", "g", "line", "rect",
         "polyline", "text", "/text", "line", "rect", "text", "/text", "/g", "/svg"] ∧
      textsOf tags = ["<svg>", "x & y · <today>", "a &lt; \"b\"", "</text><script>"] := by
  have hpalette : Palette.IsPlain {} := by
    constructor <;> simp
  have hok : (Diagram.hostile.draw {} "Inter" false).isOk = true := by rfl
  rcases h : Diagram.hostile.draw {} "Inter" false with e | svg
  · rw [h] at hok
    cases hok
  · obtain ⟨tags, hcut, hnames, htexts⟩ := Diagram.cut?_draw hpalette (by decide) h
    refine ⟨svg, tags, rfl, hcut, ?_, ?_⟩
    · rw [hnames]
      decide
    · rw [htexts]
      decide

end SequenceChart
