/-
SequenceChart/Proofs/Theme.lean

Two ways to choose a theme.

A theme is asked for by the appearance, or by a directive of the source.  A
directive at the end of a source sets its field of the header and changes
nothing else of the diagram (`Diagram.ofLines_concat_directive`).  It has lost
the blanks around its value, and a theme is looked up without regard to them
(`Palette.find?_trim`).  So a `:theme` line at the end does what the appearance
does when it asks for that theme (`renderLines_theme`).
-/
import SequenceChart.Proofs.Header
import SequenceChart.Proofs.Interleaving
import SequenceChart.Proofs.Text.Trim

namespace SequenceChart

open Text

variable {σ : Type}

/-! ### Directive lines -/

namespace Line

/-- What a keyword and a value set when they stand on a line. -/
def directiveOf (keyword value : String) : Directive where
  kind := directiveKind keyword
  value := trim value
  keyword := keyword

/-- A keyword is read up to the first blank. -/
theorem readDirective_append {k r : List Char} (hk : ∀ c ∈ k, ¬ isBlank c)
    (hr : ∀ c ∈ r.head?, isBlank c) :
    readDirective (k ++ r) =
      { kind := directiveKind (String.ofList k)
        value := String.ofList (trimChars r)
        keyword := String.ofList k } := by
  have hsolid : ∀ c ∈ k, (!isBlank c) = true := by simpa using hk
  have hrest : (r.takeWhile fun c => !isBlank c) = [] ∧ (r.dropWhile fun c => !isBlank c) = r := by
    cases r with
    | nil => exact ⟨rfl, rfl⟩
    | cons c r => simp [hr c rfl]
  unfold readDirective
  rw [List.takeWhile_append_of_pos hsolid, List.dropWhile_append_of_pos hsolid, hrest.1, hrest.2,
    List.append_nil]

/-- A directive is read as it is written, whatever blanks its value is padded
with. -/
theorem classify_directive {keyword : String} (hmark : keyword.toList.head? = some ':')
    (hsolid : ∀ c ∈ keyword.toList, ¬ isBlank c) (value : String) (number : Int) :
    classify (keyword ++ " " ++ value) number =
      { number := number
        text := keyword ++ " " ++ value
        kind := .directive
        directive := some (directiveOf keyword value) } := by
  obtain ⟨k, hk⟩ := List.head?_eq_some_iff.mp hmark
  obtain ⟨q, hq, hsplit⟩ := exists_trimRight_append (' ' :: value.toList)
  set r := trimRight (' ' :: value.toList)
  -- the blanks at the end are dropped, those after the keyword end it
  have hline : trimChars (keyword ++ " " ++ value).toList = keyword.toList ++ r := by
    have happend : (keyword ++ " " ++ value).toList = keyword.toList ++ r ++ q := by
      rw [List.append_assoc, hsplit]
      simp
    have htrimmed : Trimmed (keyword.toList ++ r) :=
      trimmed_append_trimRight (by simp [hk]) hsolid _
    rw [happend]
    exact trimChars_padded (p := []) (by simp) hq htrimmed
  have hhead : ∀ c ∈ r.head?, isBlank c := by
    intro c hc
    obtain ⟨t, ht⟩ : ∃ t, r ++ t = ' ' :: value.toList := trimRight_prefix_self _
    obtain ⟨r', hr'⟩ := List.head?_eq_some_iff.mp hc
    rw [hr', List.cons_append, List.cons.injEq] at ht
    rw [ht.1]
    rfl
  have hvalue : trimChars r = trimChars value.toList := by
    rw [← trimChars_append_blanks hq, hsplit]
    exact trimChars_blanks_append (p := [' ']) (by simp [show isBlank ' ' by decide]) _
  have hread : readDirective (keyword.toList ++ r) = directiveOf keyword value := by
    rw [readDirective_append hsolid hhead, hvalue, String.ofList_toList]
    rfl
  rw [hk, List.cons_append] at hline hread
  rw [classify, hline, ← hread]
  rfl

theorem classifyAll_concat (texts : List String) (text : String) :
    classifyAll (texts ++ [text]) = classifyAll texts ++ [classify text texts.length] := by
  rw [classifyAll, List.zipIdx_append, List.map_append, classifyAll]
  simp

end Line

open Line

/-! ### A directive at the end -/

section

variable {measurer : Measurer σ} {layout : Layout} {lines : List Line} {line : Line}
variable {d : Directive}

theorem Header.collect_concat (h : directiveOf? line = some d) :
    collect (lines ++ [line]) = (collect lines).apply d := by
  simp [collect, List.filterMap_append, List.foldl_append, h]

/-- A directive is no interaction. -/
theorem Line.interactions_concat (h : Header.directiveOf? line = some d) :
    interactions (lines ++ [line]) = interactions lines := by
  obtain ⟨hkind, -⟩ := Header.directiveOf?_eq_some.mp h
  rw [interactions_append]
  simp [interactions, isInteraction, hkind]

/-- A known directive is no issue. -/
theorem Line.issues_concat (h : Header.directiveOf? line = some d) (hknown : d.kind ≠ .unknown) :
    issues (lines ++ [line]) = issues lines := by
  obtain ⟨hkind, hline⟩ := Header.directiveOf?_eq_some.mp h
  simp [issues, isIssue, hkind, hline, hknown]

namespace Diagram

/-- The diagram after one more directive. -/
def withDirective (diagram : Diagram) (d : Directive) : Diagram :=
  { diagram with header := diagram.header.apply d }

/-- A directive at the end leaves the participants and interactions as they are. -/
theorem ofParticipants_concat (h : Header.directiveOf? line = some d) (hknown : d.kind ≠ .unknown)
    (participants : List Participant) :
    ofParticipants layout (lines ++ [line]) participants =
      (ofParticipants layout lines participants).map (withDirective · d) := by
  have hbind : bindLines participants (lines ++ [line]) = bindLines participants lines := by
    rw [bindLines, bindLines, interactions_concat h]
  unfold ofParticipants
  rw [hbind, issues_concat h hknown, Header.collect_concat h]
  -- each of the three steps fails in both or in neither
  simp only [bind, Except.bind]
  rcases (bindLines participants lines).mapError Fault.diagram with fault | interactions
  · rfl
  dsimp only
  rcases (canvasSize participants interactions.length layout).mapError Fault.arithmetic with
    fault | canvas
  · rfl
  dsimp only
  rcases (SequenceChart.boxHeight participants layout).mapError Fault.arithmetic with
    fault | height
  · rfl
  · rfl

/-- **A directive at the end sets its field, and nothing else**: the build fails
alike, or gives the same diagram with that field of its header set. -/
theorem ofLines_concat_directive (keyword : String) (hmark : keyword.toList.head? = some ':')
    (hsolid : ∀ c ∈ keyword.toList, ¬ isBlank c) (hknown : directiveKind keyword ≠ .unknown)
    (value : String) (texts : List String) (s : σ) :
    (ofLines measurer layout (texts ++ [keyword ++ " " ++ value]) s).result =
      (ofLines measurer layout texts s).result.map
        (withDirective · (directiveOf keyword value)) := by
  have hline : Header.directiveOf? (classify (keyword ++ " " ++ value) texts.length) =
      some (directiveOf keyword value) := by
    rw [classify_directive hmark hsolid]
    rfl
  have hpayloads : payloads (classifyAll (texts ++ [keyword ++ " " ++ value])) =
      payloads (classifyAll texts) := by
    rw [classifyAll_concat, payloads, interactions_concat hline, payloads]
  rw [ofLines, ofLines, build_result, build_result, resolveParticipants_congr hpayloads,
    classifyAll_concat]
  -- the participants are the same, and what is built on them differs in the header alone
  rcases (resolveParticipants measurer layout (classifyAll texts) s).result with fault | ps
  · rfl
  · exact ofParticipants_concat hline hknown ps

end Diagram

end

/-! ### Themes -/

namespace Palette

/-- A theme is looked up without the blanks around it. -/
theorem find?_trim (theme : String) : find? (trim theme) = find? theme := by
  rw [find?, find?, themeKey, themeKey, trim, String.toList_ofList, trimChars_trimChars]

end Palette

theorem nonempty?_of_toList_ne_nil {s : String} (h : s.toList ≠ []) : nonempty? s = some s := by
  rw [nonempty?, if_neg]
  rintro rfl
  exact h rfl

section

variable {appearance : Appearance} {theme : String}

/-- An appearance without a theme takes that of the header, as if it had asked
for it; one that asks for a theme has no need of a header. -/
theorem Appearance.palette_theme (hnone : appearance.theme.bind nonempty? = none)
    (htheme : ∃ c ∈ theme.toList, ¬ isBlank c) {header : Header}
    (hheader : header.theme = nonempty? (trim theme)) (other : Header) :
    appearance.palette header = { appearance with theme := some theme }.palette other := by
  have hsome : nonempty? theme = some theme := by
    obtain ⟨c, hc, -⟩ := htheme
    exact nonempty?_of_toList_ne_nil (List.ne_nil_of_mem hc)
  have htrim : nonempty? (trim theme) = some (trim theme) := by
    refine nonempty?_of_toList_ne_nil ?_
    rw [trim, String.toList_ofList]
    exact trimChars_ne_nil htheme
  -- one looks up the trimmed theme and the other the theme as it is
  have hleft : Palette.themeOf? appearance header = some (trim theme) := by
    simp [Palette.themeOf?, Palette.prefer, hnone, hheader, htrim]
  have hright : Palette.themeOf? { appearance with theme := some theme } other = some theme := by
    simp [Palette.themeOf?, Palette.prefer, hsome]
  rw [palette, palette, hleft, hright, Option.bind_some, Option.bind_some, Palette.find?_trim]
  rfl

/-- A theme in the header is as good as one that is asked for. -/
theorem Diagram.picture_theme (d : Diagram) (hnone : appearance.theme.bind nonempty? = none)
    (htheme : ∃ c ∈ theme.toList, ¬ isBlank c) :
    (d.withDirective (directiveOf ":theme" theme)).picture appearance =
      d.picture { appearance with theme := some theme } := by
  have hkind : directiveKind ":theme" = .theme := by decide
  have happly : d.header.apply (directiveOf ":theme" theme) =
      { d.header with theme := nonempty? (trim theme) } := by
    rw [Header.apply, directiveOf, hkind]
  have hheader : (d.withDirective (directiveOf ":theme" theme)).header.theme =
      nonempty? (trim theme) := by
    rw [withDirective, happly]
  have hvisible : (d.withDirective (directiveOf ":theme" theme)).visible = d.visible := by
    rw [withDirective, happly, visible, visible]
  rw [picture, picture, Appearance.palette_theme hnone htheme hheader d.header,
    draw_congr hvisible]

/-- **A theme at the end of the source is a theme of the appearance.**  For an
appearance without a theme, a source that ends in a `:theme` line is rendered
like the source without that line when the appearance asks for the theme: to
the same SVG text or the same fault, whatever the source says of themes
before, and whether or not a palette has that name. -/
theorem renderLines_theme (measurer : Measurer σ) (layout : Layout)
    (hnone : appearance.theme.bind nonempty? = none) (texts : List String)
    (htheme : ∃ c ∈ theme.toList, ¬ isBlank c) (s : σ) :
    (renderLines measurer layout appearance (texts ++ [":theme " ++ theme]) s).result =
      (renderLines measurer layout { appearance with theme := some theme } texts s).result := by
  have hspace : ":theme " ++ theme = ":theme" ++ " " ++ theme :=
    congrArg (· ++ theme) (by decide : ":theme " = ":theme" ++ " ")
  have hsolid : ∀ c ∈ ":theme".toList, ¬ isBlank c := by
    have hall : ":theme".toList.all (! isBlank ·) := by decide
    simpa only [List.all_eq_true, Bool.not_eq_true', Bool.not_eq_true] using hall
  rw [renderLines_result, renderLines_result, hspace,
    Diagram.ofLines_concat_directive ":theme" (by decide) hsolid (by decide)]
  rcases (Diagram.ofLines measurer layout texts s).result with fault | d
  · show Except.error fault = .error fault
    rfl
  · exact d.picture_theme hnone htheme

/-- The last of two `:theme` lines counts, in capitals and between blanks. -/
theorem renderLines_theme_nord :
    let texts := ["A -> B: x", ":theme dracula", "B -> B"]
    Palette.find? " NORD\t" = Palette.find? "nord" ∧ ∃ svg,
      (renderLines (.fixedWidth 10 20) {} {} (texts ++ [":theme " ++ " NORD\t"]) ()).result =
        .ok svg ∧
      (renderLines (.fixedWidth 10 20) {} { theme := some " NORD\t" } texts ()).result =
        .ok svg := by
  intro texts
  refine ⟨by decide +kernel, ?_⟩
  have hok : (renderLines (.fixedWidth 10 20) {} { theme := some " NORD\t" } texts ()).result.isOk =
      true := by
    decide +kernel
  have hsolid : ∃ c ∈ " NORD\t".toList, ¬ isBlank c := ⟨'N', by decide, by decide⟩
  rw [@renderLines_theme Unit {} " NORD\t" (.fixedWidth 10 20) {} rfl texts hsolid ()]
  rcases h : (renderLines (.fixedWidth 10 20) {} { theme := some " NORD\t" } texts ()).result with
    fault | svg
  · rw [h] at hok
    cases hok
  · exact ⟨svg, rfl, rfl⟩

end

end SequenceChart
