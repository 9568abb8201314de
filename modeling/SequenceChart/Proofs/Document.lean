/-
SequenceChart/Proofs/Document.lean

Which charts are drawn as a document.

In the default look all that a drawing writes of its own is legal, whatever the
chart (`Drawing.hinges_tokens`), so a drawing is a text that a document may hold
if and only if all labels of the chart are (`Diagram.legal_picture_iff`).  The
labels have no characters but those of the source.  A source of legal characters
is therefore drawn as a document, and a control character inside a name, a
message or the header is drawn as it stands.
-/
import SequenceChart.Proofs.Markup.Character
import SequenceChart.Proofs.Origin
import SequenceChart.Proofs.Outline
import SequenceChart.Proofs.Piece
import SequenceChart.Proofs.Rendering

namespace SequenceChart

open Markup

namespace Drawing

variable {d : Diagram} {layout : Layout} {tokens : List Token}

/-! ### Header, participants and interactions -/

/-- A line of the header hinges on its text. -/
theorem hinges_drawHeader {y : Quantity} {lines : List HeaderLine} {pieces : List (List Token)}
    (h : drawHeader layout y lines = .ok pieces) :
    List.Forall₂ Hinges pieces (lines.map fun line => [line.text]) := by
  refine List.forall₂_map_right_iff.mpr ((drawHeader_eq_ok h).imp ?_)
  rintro _ line ⟨placing, hplacing, rfl⟩
  exact Hinges.labelled (by decide) hplacing.legal line.text

theorem hinges_lifeline {p : Participant} (h : lifeline d p = .ok tokens) : Hinges tokens [] := by
  obtain ⟨_, _, _, _, shape, -, -, -, -, hshape, rfl, -⟩ := lifeline_eq_ok h
  exact Hinges.nil.cons (legal_void (by decide) hshape.legal)

theorem hinges_activation {p : Participant} (h : activation d p = .ok tokens) :
    Hinges tokens [] := by
  obtain ⟨shape, hshape, rfl⟩ := activation_eq_ok h
  exact Hinges.nil.cons (legal_void (by decide) hshape.legal)

theorem hinges_participantBox {p : Participant} (h : participantBox d p = .ok tokens) :
    Hinges tokens [p.name] := by
  obtain ⟨_, _, shape, placing, -, -, hshape, hplacing, rfl, -⟩ := participantBox_eq_ok h
  exact ((Hinges.labelled (by decide) hplacing.legal p.name).cons (by decide)).cons
    (legal_void (by decide) hshape.legal)

theorem hinges_messageLabel (message : Option String) {placing : List Attribute}
    (h : TameAttributes placing) :
    Hinges (messageLabel layout message placing) (message.bind nonempty?).toList := by
  obtain ⟨style, hstyle, hcases⟩ := messageLabel_cases layout h
  rcases hcases message with ⟨hnone, hlabel⟩ | ⟨text, hsome, hlabel⟩
  · rw [hlabel, hnone]
    exact Hinges.nil
  · rw [hlabel, hsome]
    exact (Hinges.labelled (by decide) hstyle.legal text).cons (by decide)

theorem hinges_arrow {i : Interaction} (h : arrow d i = .ok tokens) :
    Hinges tokens i.label?.toList := by
  obtain ⟨_, _, _, stroke, shape, placing, -, -, -, hshape, hplacing, rfl, hstroke⟩ :=
    arrow_eq_ok h
  have hname : Legal stroke.toList := by
    rcases hstroke with ⟨-, rfl, -⟩ | ⟨-, rfl, -⟩ <;> decide
  exact (hinges_messageLabel i.message hplacing).cons (legal_void hname hshape.legal)

/-! ### The root element and what comes before the header -/

theorem hinges_arrowMarker (h : arrowMarker = .ok tokens) : Hinges tokens [] := by
  obtain ⟨marker, polygon, hmarker, hpolygon, rfl⟩ := arrowMarker_eq_ok h
  refine (Hinges.cons (legal_start (by decide) hmarker.legal) ?_).cons (by decide)
  refine (Hinges.cons (legal_void (by decide) hpolygon.legal) ?_).cons (by decide)
  exact (Hinges.nil.cons (legal_finish (by decide))).cons (by decide)

theorem legal_mixture {percent : String} (h : Legal percent.toList) :
    Legal (mixture percent).toList :=
  ((legal_ofList (by decide)).toList_append h).toList_append (legal_ofList (by decide))

theorem legal_derivedVariables : ∀ line ∈ derivedVariables, Legal line.toList := by
  have mixed : ∀ {before percent : String}, Legal before.toList → Legal percent.toList →
      ∀ {after : String}, Legal after.toList → Legal (before ++ mixture percent ++ after).toList :=
    fun hbefore hpercent _ hafter =>
      (hbefore.toList_append (legal_mixture hpercent)).toList_append hafter
  intro line hline
  simp only [derivedVariables, List.mem_cons, List.not_mem_nil, or_false] at hline
  rcases hline with rfl | rfl | rfl | rfl | rfl | rfl | rfl | rfl
  · exact legal_ofList (by decide)
  · exact legal_ofList (by decide)
  all_goals exact mixed (legal_ofList (by decide)) (by decide) (by decide)

/-- The style sheet is legal, in the font that is used by default. -/
theorem legal_styleSheet : ∀ line ∈ styleSheet "Inter", Legal line.toList := by
  have hfont : Text.percentEncode "Inter" = "Inter" := by decide +kernel
  intro line hline
  simp only [styleSheet, hfont, List.mem_append, List.mem_cons, List.not_mem_nil,
    or_false] at hline
  -- the font stands in two lines, the other ones are constants
  rcases hline with ((rfl | rfl | rfl) | hline) | rfl
  · exact ((legal_ofList (by decide)).toList_append (by decide)).toList_append
      (legal_ofList (by decide))
  · exact ((legal_ofList (by decide)).toList_append (by decide)).toList_append
      (legal_ofList (by decide))
  · decide
  · exact legal_derivedVariables line hline
  · decide

theorem hinges_styleBlock : Hinges (styleBlock "Inter") [] := by
  refine Hinges.cons (by decide) ((Hinges.nil.cons (by decide)).cons ?_)
  have hsheet := legal_intercalate (by decide : Legal "\n".toList) legal_styleSheet
  exact ((by decide : Legal "\n".toList).toList_append hsheet).toList_append (by decide)

/-- The style variables of a named palette. -/
theorem legal_styleVariables : ∀ palette ∈ Palette.named.map Prod.snd,
    ∀ v ∈ styleVariables palette, Legal v.toList := by
  decide +kernel

/-- The colours of a theme are legal. -/
theorem hinges_rootTag {palette : Palette} (h : palette ∈ Palette.named.map Prod.snd)
    (size : Size) : Hinges [rootTag size palette false] [] := by
  have hstyle : Legal
      (String.intercalate ";" (styleVariables palette) ++ ";background:var(--bg)").toList :=
    (legal_intercalate (by decide) (legal_styleVariables palette h)).toList_append
      (legal_ofList (by decide))
  unfold rootTag
  dsimp only
  rw [if_neg Bool.false_ne_true]
  -- only that the style is legal matters, not how it is put together
  generalize String.intercalate ";" (styleVariables palette) ++ ";background:var(--bg)" = style
    at hstyle ⊢
  refine Hinges.nil.cons (legal_start (by decide) ?_)
  simp +decide [LegalAttributes, Quantity.legal_text, hstyle]

/-! ### The whole -/

theorem map_snd_shownLines (d : Diagram) : (shownLines d).map Prod.snd =
    [[], [], [], [], []] ++ (headerLines d.header).map (fun line => [line.text]) ++ [[]] ++
      d.participants.map (fun _ => []) ++ d.participants.map (fun _ => []) ++
      d.interactions.map (fun i => i.label?.toList) ++ d.participants.map (fun p => [p.name]) ++
      [[], []] := by
  simp only [shownLines, List.map_append, List.map_map]
  rfl

/-- A drawing in the colours of a theme is legal up to its labels. -/
theorem hinges_tokens {palette : Palette} (hpalette : palette ∈ Palette.named.map Prod.snd)
    (h : Drawing.tokens d palette "Inter" false = .ok tokens) : Hinges tokens d.labels := by
  simp only [Drawing.tokens, bind_eq_ok] at h
  obtain ⟨band, -, width, -, height, -, marker, hmarker, headerText, hheader, lifelines, hlifelines,
    activations, hactivations, arrows, harrows, boxes, hboxes, h⟩ := h
  obtain rfl := Except.ok.inj h
  rw [← flatMap_snd_shownLines, List.flatMap_def]
  refine Hinges.onLines ?_
  rw [map_snd_shownLines]
  have hshift : LegalAttributes [("transform", "translate(0," ++ band.text ++ ")")] := by
    simp +decide [LegalAttributes, Quantity.legal_text]
  have hlines := Hinges.mapM (fun p tokens => hinges_lifeline) hlifelines
  have hspans := Hinges.mapM (fun p tokens => hinges_activation) hactivations
  have harrows := Hinges.mapM (fun i tokens => hinges_arrow) harrows
  have hboxes := Hinges.mapM (fun p tokens => hinges_participantBox) hboxes
  -- now piece by piece, in the order in which they are drawn
  refine List.rel_append (List.rel_append (List.rel_append (List.rel_append (List.rel_append
    (List.rel_append (List.rel_append ?_ (hinges_drawHeader hheader)) ?_) hlines) hspans)
    harrows) hboxes) ?_
  · refine .cons (hinges_rootTag hpalette _) (.cons hinges_styleBlock (.cons ?_ ?_))
    · exact Hinges.nil.cons (by decide)
    · exact .cons (hinges_arrowMarker hmarker) (.cons (Hinges.nil.cons (by decide)) .nil)
  · exact .cons (Hinges.nil.cons (legal_start (by decide) hshift)) .nil
  · exact .cons (Hinges.nil.cons (by decide)) (.cons (Hinges.nil.cons (by decide)) .nil)

end Drawing

/-! ### The default look -/

/-- The palette of a theme is one of the named ones. -/
theorem Palette.mem_named_of_find? {theme : String} {palette : Palette}
    (h : find? theme = some palette) : palette ∈ named.map Prod.snd := by
  obtain ⟨before, after, hnamed, -⟩ := List.lookup_eq_some_iff.mp h
  rw [hnamed]
  simp

/-- Where nothing is asked for, a chart has a named palette. -/
theorem Appearance.palette_mem_named (header : Header) :
    ({} : Appearance).palette header ∈ Palette.named.map Prod.snd := by
  have hoverride : ∀ palette : Palette, palette.override {} = palette := fun _ => rfl
  rw [palette, hoverride]
  rcases h : (Palette.themeOf? {} header).bind Palette.find? with - | palette
  · decide
  · obtain ⟨theme, -, hfind⟩ := Option.bind_eq_some_iff.mp h
    exact Palette.mem_named_of_find? hfind

/-- **In the default look a drawing is as legal as its labels.** -/
theorem Diagram.legal_picture_iff {d : Diagram} {svg : String} (h : d.picture {} = .ok svg) :
    Legal svg.toList ↔ ∀ label ∈ d.labels, Legal label.toList := by
  have hpicture : d.picture {} =
      (d.draw (({} : Appearance).palette d.header) "Inter" false).mapError .arithmetic := rfl
  rw [hpicture] at h
  -- a picture comes from a drawing that succeeded
  rcases hdraw : d.draw (({} : Appearance).palette d.header) "Inter" false with e | drawn
  · rw [hdraw] at h
    cases h
  · rw [hdraw] at h
    obtain rfl := Except.ok.inj h
    simp only [draw, bind_eq_ok] at hdraw
    obtain ⟨tokens, htokens, hdraw⟩ := hdraw
    obtain rfl := Except.ok.inj hdraw
    rw [print, String.toList_ofList]
    exact Drawing.hinges_tokens (Appearance.palette_mem_named d.header) htokens

/-! ### Rendered sources -/

section

variable {σ : Type} {measurer : Measurer σ} {layout : Layout} {s : σ}

/-- **A drawing in the default look is a text that a document may hold if and
only if the labels of the chart are.**  So are all drawings of a source that
has no other characters. -/
theorem legal_renderChart {source svg : String}
    (h : (renderChart measurer layout {} source s).result = .ok svg) :
    ∃ d, (Diagram.ofText measurer layout source s).result = .ok d ∧
      (Legal svg.toList ↔ ∀ label ∈ d.labels, Legal label.toList) ∧
      (Legal source.toList → Legal svg.toList) := by
  rw [renderChart_result, bind_eq_ok] at h
  obtain ⟨d, hd, hpicture⟩ := h
  have hiff := Diagram.legal_picture_iff hpicture
  refine ⟨d, hd, hiff, fun hsource => hiff.mpr fun label hlabel => ?_⟩
  have hdot : Legal " · ".toList := by decide
  exact (legal_append.mpr ⟨hsource, hdot⟩).of_subset (Diagram.subset_of_mem_labels hd label hlabel)

end

/-- A message with the control character U+0001 among its letters. -/
theorem legal_renderChart_message : ∃ svg d,
    (renderChart (.estimated : Measurer Unit) {} {} "A -> B: x\x01y" ()).result = .ok svg ∧
    (Diagram.ofText (.estimated : Measurer Unit) {} "A -> B: x\x01y" ()).result = .ok d ∧
    d.labels = ["x\x01y", "A", "B"] ∧
    (Legal svg.toList ↔ ∀ label ∈ d.labels, Legal label.toList) := by
  have hok : (renderChart (.estimated : Measurer Unit) {} {} "A -> B: x\x01y" ()).result.isOk := by
    decide +kernel
  have hlabels : (Diagram.ofText (.estimated : Measurer Unit) {} "A -> B: x\x01y" ()).result.map
      Diagram.labels = .ok ["x\x01y", "A", "B"] := by
    decide +kernel
  obtain ⟨svg, hsvg⟩ := exists_of_isOk hok
  obtain ⟨d, hd, hiff, -⟩ := legal_renderChart hsvg
  rw [hd] at hlabels
  exact ⟨svg, d, hsvg, hd, Except.ok.inj hlabels, hiff⟩

/-- A control character in the title is drawn as it stands. -/
theorem not_legal_of_control : ∃ svg,
    (renderChart (.estimated : Measurer Unit) {} {} ":title x\x01y" ()).result = .ok svg ∧
      ¬ Legal svg.toList := by
  have hok : (renderChart (.estimated : Measurer Unit) {} {} ":title x\x01y" ()).result.isOk := by
    decide +kernel
  have hlabels : (Diagram.ofText (.estimated : Measurer Unit) {} ":title x\x01y" ()).result.map
      Diagram.labels = .ok ["x\x01y"] := by
    decide +kernel
  obtain ⟨svg, hsvg⟩ := exists_of_isOk hok
  refine ⟨svg, hsvg, fun hlegal => ?_⟩
  rw [renderChart_result, bind_eq_ok] at hsvg
  obtain ⟨d, hd, hpicture⟩ := hsvg
  rw [hd] at hlabels
  have htitle := (Diagram.legal_picture_iff hpicture).mp hlegal "x\x01y"
    (by rw [Except.ok.inj hlabels]; exact List.mem_cons_self)
  exact absurd htitle (by decide)

end SequenceChart
