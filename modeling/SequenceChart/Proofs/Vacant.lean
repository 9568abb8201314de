/-
SequenceChart/Proofs/Vacant.lean

Charts with nobody in them.

A source without interactions gives a chart without participants.  Nothing is
measured for it, so its picture is the same whatever would measure the names:
an empty canvas below the header (`renderLines_of_vacant`), which can always be
drawn in the default layout (`Diagram.exists_picture_vacant`).  As soon as there
is an interaction, the first thing to do is to measure the name of its sender,
and if that is refused, there is no picture (`renderLines_of_refused`).

The header band is calculated in binary64, which integers may be too large for.
`Quantity.Fits` says that one is not; nothing else can go wrong with a header,
whatever its texts are.
-/
import SequenceChart.Proofs.Build
import SequenceChart.Proofs.Rendering
import SequenceChart.Proofs.Role

namespace SequenceChart

/-! ### Quantities within the range of binary64 -/

namespace Quantity

variable {a b : Quantity}

/-- Whether there is a nearest binary64 number. -/
def Fits (q : Quantity) : Prop :=
  ∃ x, q.toFloat = .ok x

theorem fits_float (x : Float) : (float x).Fits := ⟨x, rfl⟩

theorem fits_int {n : Int} (h : (Float.ofInt n).isInf = false) : (int n).Fits := by
  refine ⟨Float.ofInt n, ?_⟩
  simp [toFloat, h]

/-- With a binary64 number, a sum is rounded. -/
theorem add_float (a : Quantity) (y : Float) :
    a.add (float y) = a.toFloat.map fun x => float (x + y) := by
  cases a with
  | int n =>
      show ((int n).toFloat >>= fun x => .ok (float (x + y))) = _
      rcases (int n).toFloat with e | x <;> rfl
  | float x => rfl

theorem mul_float (a : Quantity) (y : Float) :
    a.mul (float y) = a.toFloat.map fun x => float (x * y) := by
  cases a with
  | int n =>
      show ((int n).toFloat >>= fun x => .ok (float (x * y))) = _
      rcases (int n).toFloat with e | x <;> rfl
  | float x => rfl

theorem Fits.add_float (ha : a.Fits) (y : Float) : ∃ z, a.add (float y) = .ok (float z) := by
  obtain ⟨x, hx⟩ := ha
  exact ⟨x + y, by rw [Quantity.add_float, hx]; rfl⟩

theorem Fits.mul_float (ha : a.Fits) (y : Float) : ∃ z, a.mul (float y) = .ok (float z) := by
  obtain ⟨x, hx⟩ := ha
  exact ⟨x * y, by rw [Quantity.mul_float, hx]; rfl⟩

/-- A sum does not fail if both sides are in the range. -/
theorem Fits.exists_add (ha : a.Fits) (hb : b.Fits) : ∃ c, a.add b = .ok c := by
  cases b with
  | float y =>
      obtain ⟨z, hz⟩ := ha.add_float y
      exact ⟨_, hz⟩
  | int n =>
      cases a with
      | int m => exact ⟨_, rfl⟩
      | float x =>
          obtain ⟨y, hy⟩ := hb
          refine ⟨float (x + y), ?_⟩
          show ((int n).toFloat >>= fun y => .ok (float (x + y))) = _
          rw [hy]
          rfl

end Quantity

open Quantity

/-! ### The header band -/

namespace Drawing

/-- Whether the header of a layout can be calculated. -/
structure HeaderFits (layout : Layout) : Prop where
  padding : layout.padding.Fits
  titleFontSize : layout.titleFontSize.Fits
  messageFontSize : layout.messageFontSize.Fits
  inset : ∃ inset, layout.inset = .ok inset

/-- In the default layout every header can be drawn. -/
theorem headerFits_default : HeaderFits {} where
  padding := fits_int (by decide +kernel)
  titleFontSize := fits_int (by decide +kernel)
  messageFontSize := fits_int (by decide +kernel)
  inset := ⟨_, rfl⟩

variable {layout : Layout} (h : HeaderFits layout) {y : Quantity}
include h

theorem HeaderFits.exists_height (line : HeaderLine) :
    ∃ height, estimateHeight (line.fontSize layout) = .ok (.float height) := by
  have hsize : (line.fontSize layout).Fits := by
    unfold HeaderLine.fontSize
    split
    · exact h.titleFontSize
    · exact h.messageFontSize
  exact hsize.mul_float _

theorem HeaderFits.exists_bottom (hy : y.Fits) (line : HeaderLine) :
    ∃ next, line.bottom layout y = .ok next ∧ next.Fits := by
  obtain ⟨height, hheight⟩ := h.exists_height line
  obtain ⟨next, hnext⟩ := hy.add_float height
  exact ⟨_, bind_eq_ok.mpr ⟨_, hheight, hnext⟩, fits_float next⟩

theorem HeaderFits.exists_draw (hy : y.Fits) (line : HeaderLine) :
    ∃ tokens, line.draw layout y = .ok tokens := by
  obtain ⟨height, hheight⟩ := h.exists_height line
  obtain ⟨inset, hinset⟩ := h.inset
  obtain ⟨middle, hmiddle⟩ := hy.add_float (height / 2)
  exact ⟨_, bind_eq_ok.mpr ⟨_, hheight, bind_eq_ok.mpr ⟨_, hinset, bind_eq_ok.mpr
    ⟨_, rfl, bind_eq_ok.mpr ⟨_, hmiddle, rfl⟩⟩⟩⟩⟩

/-- A header can be drawn below any height that fits. -/
theorem HeaderFits.exists_drawHeader (hy : y.Fits) (lines : List HeaderLine) :
    ∃ tokens, drawHeader layout y lines = .ok tokens := by
  induction lines generalizing y with
  | nil => exact ⟨[], rfl⟩
  | cons line lines ih =>
      obtain ⟨drawn, hdrawn⟩ := h.exists_draw hy line
      obtain ⟨next, hnext, hfits⟩ := h.exists_bottom hy line
      obtain ⟨rest, hrest⟩ := ih hfits
      exact ⟨_, bind_eq_ok.mpr ⟨_, hdrawn, bind_eq_ok.mpr ⟨_, hnext, bind_eq_ok.mpr
        ⟨_, hrest, rfl⟩⟩⟩⟩

/-- The header band of a layout that fits has a height. -/
theorem HeaderFits.exists_headerHeight (lines : List HeaderLine) :
    ∃ band, headerHeight layout lines = .ok band ∧ band.Fits := by
  -- the band starts at any height that fits, which the induction needs
  suffices H : ∀ y : Quantity, y.Fits →
      ∃ band, lines.foldlM (HeaderLine.bottom layout) y = .ok band ∧ band.Fits by
    unfold headerHeight
    split
    · exact ⟨_, rfl, fits_int (by decide +kernel)⟩
    · exact H _ h.padding
  induction lines with
  | nil => exact fun y hy => ⟨y, rfl, hy⟩
  | cons line lines ih =>
      intro y hy
      obtain ⟨next, hnext, hfits⟩ := h.exists_bottom hy line
      obtain ⟨band, hband, hfits⟩ := ih next hfits
      exact ⟨band, by rw [List.foldlM_cons, hnext]; exact hband, hfits⟩

/-- A diagram with nobody in it can be drawn. -/
theorem HeaderFits.exists_tokens {d : Diagram} (hlayout : d.layout = layout)
    (hparticipants : d.participants = []) (hinteractions : d.interactions = [])
    (hheight : d.canvas.height.Fits) (palette : Palette) (font : String) (transparent : Bool) :
    ∃ ts, tokens d palette font transparent = .ok ts := by
  subst hlayout
  obtain ⟨band, hband, hfits⟩ := h.exists_headerHeight (headerLines d.header)
  obtain ⟨height, hsum⟩ := hheight.exists_add hfits
  obtain ⟨headerText, htext⟩ := h.exists_drawHeader h.padding (headerLines d.header)
  have hwidth : contentWidth d = .ok d.canvas.width := by
    rw [contentWidth, hinteractions]
    rfl
  obtain ⟨marker, hmarker⟩ : ∃ marker, arrowMarker = .ok marker := ⟨_, rfl⟩
  -- there is nothing to be drawn below the header
  have hnone : ∀ {α : Type} {xs : List α}, xs = [] → ∀ f : α → Calc (List Markup.Token),
      xs.mapM f = .ok [] := by
    rintro α xs rfl f
    rfl
  simp only [tokens, bind_eq_ok]
  exact ⟨_, band, hband, _, hwidth, height, hsum, marker, hmarker, headerText, htext,
    [], hnone hparticipants _, [], hnone hparticipants _, [], hnone hinteractions _,
    [], hnone hparticipants _, rfl⟩

end Drawing

/-! ### The passes -/

variable {σ : Type} {measurer : Measurer σ} {layout : Layout} {lines : List Line} {s : σ}

namespace Diagram

/-- The diagram of lines without interactions, in the default layout. -/
def vacant (lines : List Line) : Diagram :=
  { canvas := { width := .int 50, height := .int 50 }
    header := Header.collect lines
    issues := Line.issues lines }

/-- Without interactions nothing can go wrong, and nobody is measured. -/
theorem build_of_vacant (h : Line.interactions lines = []) :
    (build measurer {} lines s).result = .ok (vacant lines) := by
  have hmentions : mentions lines = [] := by rw [mentions, h]; rfl
  have hresolved : (resolveParticipants measurer {} lines s).result = .ok [] := by
    rw [resolveParticipants, hmentions]
    rfl
  have hbound : bindLines [] lines = .ok [] := by rw [bindLines, h]; rfl
  rw [build_result, hresolved]
  show ofParticipants {} lines [] = _
  rw [ofParticipants, hbound]
  rfl

/-- A build stops at the first name if that is refused. -/
theorem build_of_refused (hnamed : Line.Named lines) (hlines : Line.interactions lines ≠ [])
    (hinset : ∃ start, layout.inset = .ok start)
    (hrefused : ∀ name, ∃ e,
      (measurer name layout.participantFontSize s).result = .error (.diagram e)) :
    ∃ e, (build measurer layout lines s).result = .error (.diagram e) := by
  obtain ⟨line, rest, hinteractions⟩ := List.exists_cons_of_ne_nil hlines
  obtain ⟨start, hstart⟩ := hinset
  obtain ⟨name, hname⟩ : ∃ name, line.sender = some name :=
    Option.isSome_iff_exists.mp (hnamed line (by simp [hinteractions])).1
  obtain ⟨e, he⟩ := hrefused name
  -- the sender of the first line is mentioned first
  obtain ⟨later, hmentions⟩ : ∃ later, mentions lines = ⟨0, some name⟩ :: later := by
    rw [mentions, hinteractions, List.zipIdx_cons, List.flatMap_cons, ← hname]
    exact ⟨_, rfl⟩
  refine ⟨e, ?_⟩
  have hresolved : (resolveParticipants measurer layout lines s).result = .error (.diagram e) := by
    rw [resolveParticipants, hmentions, Run.liftM_eq_ofCalc, Run.bind_result_error]
    refine .inr ⟨start, Run.ofCalc_result_ok.mpr hstart, ?_⟩
    rw [Run.bind_result_error, List.foldlM_cons, Run.bind_result_error]
    -- what fails is the first step of the pass, so nothing later is looked at
    refine .inl (.inl ?_)
    show (Roster.enter measurer layout _ name 0 s).result = _
    rw [Roster.enter, Run.bind_result_error]
    exact .inl he
  rw [build_result, hresolved]
  rfl

/-- A chart with nobody in it can be drawn. -/
theorem exists_picture_vacant (lines : List Line) (appearance : Appearance) :
    ∃ svg, (vacant lines).picture appearance = .ok svg := by
  have hheight : (vacant lines).canvas.height.Fits := fits_int (by decide +kernel)
  obtain ⟨ts, hts⟩ := Drawing.headerFits_default.exists_tokens (d := vacant lines) rfl rfl rfl
    hheight (appearance.palette (vacant lines).header)
    ((appearance.font.bind nonempty?).getD "Inter") (appearance.transparent.getD false)
  refine ⟨Markup.print ts, ?_⟩
  rw [picture, draw, hts]
  rfl

end Diagram

/-! ### Pictures -/

section

variable {texts : List String} (appearance : Appearance)

/-- A source has no interactions if none of its texts is one. -/
theorem interactions_classifyAll_eq_nil :
    Line.interactions (Line.classifyAll texts) = [] ↔
      ∀ text ∈ texts, ¬ (Line.classify text).isInteraction := by
  rw [Line.interactions, List.filter_eq_nil_iff]
  constructor
  · intro h text htext
    obtain ⟨j, hj⟩ := List.mem_iff_getElem?.mp htext
    rw [← Line.isInteraction_classify text j]
    exact h _ (Line.mem_classifyAll.mpr ⟨j, text, hj, rfl⟩)
  · intro h line hline
    obtain ⟨j, text, hj, rfl⟩ := Line.mem_classifyAll.mp hline
    rw [Line.isInteraction_classify]
    exact h text (List.mem_of_getElem? hj)

/-- Without interactions the measurer has no part in the picture. -/
theorem renderLines_of_vacant (h : ∀ text ∈ texts, ¬ (Line.classify text).isInteraction)
    (measurer : Measurer σ) (s : σ) :
    (renderLines measurer {} appearance texts s).result =
      (Diagram.vacant (Line.classifyAll texts)).picture appearance := by
  rw [renderLines_result, Diagram.ofLines,
    Diagram.build_of_vacant (interactions_classifyAll_eq_nil.mpr h)]
  rfl

/-- With an interaction there is none if all names are refused. -/
theorem renderLines_of_refused (h : ∃ text ∈ texts, (Line.classify text).isInteraction)
    (hinset : ∃ start, layout.inset = .ok start)
    (hrefused : ∀ name, ∃ e,
      (measurer name layout.participantFontSize s).result = .error (.diagram e)) :
    ∃ e, (renderLines measurer layout appearance texts s).result = .error (.diagram e) := by
  have hlines : Line.interactions (Line.classifyAll texts) ≠ [] := by
    rw [Ne, interactions_classifyAll_eq_nil]
    push Not
    exact h
  obtain ⟨e, he⟩ := Diagram.build_of_refused (Line.named_classifyAll texts) hlines hinset hrefused
  refine ⟨e, ?_⟩
  rw [renderLines_result, Diagram.ofLines, he]
  rfl

end

end SequenceChart
