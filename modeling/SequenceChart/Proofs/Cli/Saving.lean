/-
SequenceChart/Proofs/Cli/Saving.lean

What a run of `render` does to the files, and what stops it.

A run has at most one text to save: the picture of what it reads, under its
output path, and it has one only if nothing but saving can still fail
(`pending_of_save`).  Saving can fail in three ways (`saveIn_cases`).  If the
path leads to no file, all files stay as they are.  If the file was opened, but
the picture cannot be encoded or does not get into it as a whole, what the file
had is lost.  So a run that fails keeps every file unless it was broken off while
it wrote its picture (`kept_or_brokenOff`), and then no other file is changed.

A font is only asked for once there is a name to be measured.  A missing font
therefore stops the run exactly if the source has an interaction, and makes no
difference otherwise (`stopped_or_same`).
-/
import SequenceChart.Proofs.Cli.FileTree
import SequenceChart.Proofs.Cli.Input
import SequenceChart.Proofs.Text.Terminal
import SequenceChart.Proofs.Vacant

namespace SequenceChart.Cli

open Text

variable {platform : Platform} {fonts : Fonts} {stdin : ByteArray} {t : FileTree}

/-! ### Missing fonts -/

/-- Whether the font of a path cannot be loaded. -/
def Fonts.Lacks (fonts : Fonts) (path : String) : Prop :=
  ∀ pixels state, ∃ reason, (fonts.library.load (.file path) pixels state).1 = .error reason

/-- What cannot be opened is no font. -/
def Fonts.Opens (fonts : Fonts) (t : FileTree) (path : String) : Prop :=
  t.canOpen (.exact path) = false → fonts.Lacks path

/-- Where there are no fonts, every font is missing. -/
theorem noFonts_lacks (canOpen : String → Bool) (path : String) : (noFonts canOpen).Lacks path :=
  fun _ _ => ⟨_, rfl⟩

section

variable {φ ω : Type} {lib : FontLibrary φ ω} {face : FontFace} {pixels : Int}
  {cache : FontCache φ ω} {reason : String}
  (hload : (lib.load face pixels cache.library).1 = .error reason)
include hload

/-- A font that cannot be loaded is an error of the diagram. -/
theorem loadFont_refused : (lib.loadFont face pixels cache).result = .error (.diagram
    (.unmeasurable face.blamed ("font could not be loaded (" ++ reason ++ ")"))) := by
  rw [FontLibrary.loadFont, Run.bind_result_error]
  refine .inr ⟨cache, rfl, ?_⟩
  rcases hloaded : lib.load face pixels cache.library with ⟨loaded, library⟩
  rw [hloaded] at hload
  obtain rfl : loaded = .error reason := hload
  rfl

/-- A font that is not at hand and cannot be loaded stops the measurement. -/
theorem ofFace_refused {fontSize : Quantity} (hpixels : pixelSize fontSize = .ok pixels)
    (hfind : cache.find? pixels = none) (text : String) :
    (Measurer.ofFace lib face text fontSize cache).result = .error (.diagram
      (.unmeasurable face.blamed ("font could not be loaded (" ++ reason ++ ")"))) := by
  rw [Measurer.ofFace, Run.bind_result_error]
  refine .inl ?_
  rw [FontLibrary.font, Run.bind_result_error]
  refine .inr ⟨pixels, Run.ofCalc_result_ok.mpr hpixels, ?_⟩
  rw [Run.bind_result_error]
  refine .inr ⟨cache, rfl, ?_⟩
  simp only [hfind]
  exact loadFont_refused hload

end

/-- No name can be measured with a font that is missing. -/
theorem measurerFor_refused {path : String} (hpath : path ≠ "") (h : fonts.Lacks path)
    (name : String) :
    ∃ e, (measurerFor fonts (some path) name ({} : Layout).participantFontSize
      { library := fonts.state }).result = .error (.diagram e) := by
  have hmeasurer : measurerFor fonts (some path) = .ofFace fonts.library (.file path) := by
    simp [measurerFor, nonempty?, hpath]
  have hpixels : pixelSize ({} : Layout).participantFontSize = .ok 18 := rfl
  obtain ⟨reason, hload⟩ := h 18 fonts.state
  rw [hmeasurer]
  exact ⟨_, ofFace_refused hload hpixels rfl name⟩

/-! ### Drawing a source -/

/-- The picture that a request asks for, or the fault. -/
def drawn (fonts : Fonts) (request : RenderRequest) (source : String) : Except Fault String :=
  (renderChart (measurerFor fonts request.font) {}
    { theme := request.theme, transparent := some request.transparent } source
    { library := fonts.state }).result

section

variable {request : RenderRequest} (found : Decoded)

/-- A picture is printed, or saved if there is an output path. -/
theorem renderSource_of_drawn {svg : String}
    (h : drawn platform.fonts request found.text = .ok svg) :
    (renderSource platform request found).ending = .exited 0 ∧
    (renderSource platform request found).stdout =
      (if request.output = none then platform.echo svg ++ "\n" else "") ∧
    (renderSource platform request found).save = request.output.map fun path =>
      { path := path, text := svg, stray := found.stray } := by
  rw [drawn] at h
  rw [renderSource]
  simp only [h]
  cases request.output with
  | none => exact ⟨rfl, by simp [Platform.printed, unlines], rfl⟩
  | some path => exact ⟨rfl, rfl, rfl⟩

/-- Without a picture nothing is printed or saved. -/
theorem renderSource_of_fault {fault : Fault}
    (h : drawn platform.fonts request found.text = .error fault) :
    (renderSource platform request found).ending.exitCode = 1 ∧
    (renderSource platform request found).stdout = "" ∧
    (renderSource platform request found).save = none := by
  rw [drawn] at h
  rw [renderSource]
  simp only [h]
  cases fault <;> exact ⟨rfl, rfl, rfl⟩

end

section

variable {request : RenderRequest} {source : String}

/-- The picture depends on the lines of a source alone. -/
theorem drawn_congr {text : String} (h : splitLines text = splitLines source) :
    drawn fonts request text = drawn fonts request source := by
  rw [drawn, renderChart, ofText_congr h, ← renderChart, drawn]

/-- Without interactions the font makes no difference. -/
theorem drawn_of_vacant (h : ∀ text ∈ splitLines source, ¬ (Line.classify text).isInteraction) :
    drawn fonts request source = (Diagram.vacant (Line.readAll source)).picture
      { theme := request.theme, transparent := some request.transparent } :=
  renderLines_of_vacant _ h _ _

/-- With a missing font there is no picture of an interaction. -/
theorem drawn_of_lacks {path : String} (hfont : request.font = some path) (hpath : path ≠ "")
    (hlacks : fonts.Lacks path)
    (h : ∃ text ∈ splitLines source, (Line.classify text).isInteraction) :
    ∃ e, drawn fonts request source = .error (.diagram e) := by
  rw [drawn, hfont]
  exact renderLines_of_refused _ h ⟨_, rfl⟩ (measurerFor_refused hpath hlacks)

end

/-! ### Saving -/

/-- A text cannot be encoded exactly if it has a stand-in. -/
theorem content?_eq_none_iff {saving : Saving} :
    saving.content? = none ↔ ∃ c ∈ saving.stray, c ∈ saving.text.toList := by
  rw [Saving.content?]
  split
  · next hstray =>
      obtain ⟨c, hc, hmem⟩ := List.any_eq_true.mp hstray
      exact iff_of_true rfl ⟨c, by simpa using hmem, hc⟩
  · next hstray =>
      refine iff_of_false (Option.some_ne_none _) ?_
      rintro ⟨c, hmem, hc⟩
      exact hstray (List.any_eq_true.mpr ⟨c, hc, by simpa using hmem⟩)

theorem content?_eq_some {saving : Saving} {content : ByteArray}
    (h : saving.content? = some content) : content = saving.text.toUTF8 := by
  rw [Saving.content?] at h
  split at h
  · cases h
  · exact (Option.some.inj h).symm

/-- What was written of a text when writing it failed: nothing if it cannot be
encoded, and otherwise a beginning. -/
def Remnant (platform : Platform) (saving : Saving) (place : Place) (left : ByteArray) : Prop :=
  (left = ByteArray.empty ∧ ∃ c ∈ saving.stray, c ∈ saving.text.toList) ∨
  ∃ size, platform.cutOff? place saving.text.toUTF8 = some size ∧
    left = saving.text.toUTF8.extract 0 size

/-- A text is saved, or there is no file for it and the files stay, or it is not
written to the end and a part of it is left. -/
theorem saveIn_cases {o : Outcome} {saving : Saving} (h : o.save = some saving) :
    (∃ place, t.target (.ofString saving.path) = .ok place ∧
      o.saveIn platform t =
        (o.saved (.ofString saving.path), t.fill place saving.text.toUTF8)) ∨
    (o.saveIn platform t).1.ending.exitCode = 1 ∧
      ((o.saveIn platform t).2 = t ∨
        ∃ place left, t.target (.ofString saving.path) = .ok place ∧
          Remnant platform saving place left ∧ (o.saveIn platform t).2 = t.fill place left) := by
  rw [Outcome.saveIn, h]
  dsimp only
  rcases hplace : t.target (.ofString saving.path) with e | place
  · exact .inr ⟨rfl, .inl rfl⟩
  dsimp only
  rcases hcontent : saving.content? with - | content
  · exact .inr ⟨rfl, .inr ⟨place, _, rfl, .inl ⟨rfl, content?_eq_none_iff.mp hcontent⟩, rfl⟩⟩
  obtain rfl := content?_eq_some hcontent
  dsimp only
  rcases hcut : platform.cutOff? place saving.text.toUTF8 with - | size
  · exact .inl ⟨place, rfl, rfl⟩
  · exact .inr ⟨rfl, .inr ⟨place, _, rfl, .inr ⟨size, hcut, rfl⟩, rfl⟩⟩

/-! ### Runs -/

/-- What a run of `render` is about to save: the picture of what it finds, under
its output path. -/
structure Pending (platform : Platform) (arguments : List String) (stdin : ByteArray)
    (t : FileTree) (request : RenderRequest) (found : Decoded) (saving : Saving) : Prop where
  command : platform.readCommand arguments = .ok (.render request)
  finds : Finds platform.stdin stdin t request.builtIn request.input found
  picture : drawn platform.fonts request found.text = .ok saving.text
  path : request.output = some saving.path
  stray : saving.stray = found.stray

/-- What a run leaves behind that failed while it wrote its picture.  A part of
the picture is in the file that its output path leads to, and no other file is
changed. -/
def BrokenOff (platform : Platform) (arguments : List String) (stdin : ByteArray)
    (t t' : FileTree) : Prop :=
  ∃ request found saving place left,
    Pending platform arguments stdin t request found saving ∧
    t.resolve (.ofString saving.path) = .ok place ∧
    Remnant platform saving place left ∧ t.Wrote t' place left

section

variable {arguments : List String}

/-- Without a source a command fails. -/
theorem exitCode_of_readSource {decoder : Decoder} {files : Files} {origin : Origin}
    {ending : Ending} (h : readSource decoder stdin files origin = .error ending) :
    ending.exitCode ≠ 0 := by
  cases origin with
  | builtIn => cases h
  | stdin =>
      rw [readSource, Decoder.read] at h
      split at h
      · obtain rfl := Except.error.inj h
        decide
      · cases h
  | file path =>
      rw [readSource] at h
      split at h
      · obtain rfl := Except.error.inj h
        unfold unread
        split <;> simp [Ending.exitCode]
      · unfold decode at h
        split at h
        · obtain rfl := Except.error.inj h
          decide
        · cases h

/-- Either a command finds something to read, or it fails without anything to
save. -/
theorem onSource_cases (decoder : Decoder) (stdin : ByteArray) (t : FileTree) (builtIn : Bool)
    (input : Option String) :
    (∃ found, Finds decoder stdin t builtIn input found) ∨
    ∀ verbose apply, (onSource decoder stdin t.view builtIn input verbose apply).save = none ∧
      (onSource decoder stdin t.view builtIn input verbose apply).ending.exitCode ≠ 0 := by
  rcases horigin : originOf builtIn input with e | origin
  · exact .inr fun _ _ => by simp [onSource, horigin, Ending.exitCode]
  rcases hread : readSource decoder stdin t.view origin with ending | found
  · refine .inr fun _ _ => ?_
    rw [onSource, horigin]
    dsimp only
    rw [hread]
    exact ⟨rfl, exitCode_of_readSource hread⟩
  · exact .inl ⟨found, origin, horigin, hread⟩

/-- Only a run that has drawn its picture has something to save, and nothing but
saving can still go wrong. -/
theorem pending_of_save {saving : Saving}
    (h : (outcome platform arguments stdin t.view).save = some saving) :
    (outcome platform arguments stdin t.view).ending = .exited 0 ∧
      ∃ request found, Pending platform arguments stdin t request found saving := by
  rcases hcommand : platform.readCommand arguments with e | command
  · rw [outcome, hcommand] at h
    cases h
  cases command with
  | help =>
      rw [outcome, hcommand] at h
      cases h
  | check request =>
      rw [outcome_check hcommand] at h
      rcases onSource_cases platform.stdin stdin t request.builtIn request.input with
        ⟨found, hfinds⟩ | hfailed
      · rw [onSource_of_finds hfinds, save_checkSource] at h
        cases h
      · rw [(hfailed _ _).1] at h
        cases h
  | render request =>
      rw [outcome_render hcommand] at h ⊢
      rcases onSource_cases platform.stdin stdin t request.builtIn request.input with
        ⟨found, hfinds⟩ | hfailed
      · rw [onSource_of_finds hfinds] at h ⊢
        rcases hdrawn : drawn platform.fonts request found.text with fault | svg
        · rw [(renderSource_of_fault found hdrawn).2.2] at h
          cases h
        · obtain ⟨hending, -, hsave⟩ := renderSource_of_drawn found hdrawn
          obtain ⟨path, hpath, rfl⟩ := Option.map_eq_some_iff.mp (hsave.symm.trans h)
          exact ⟨hending, request, found, hcommand, hfinds, hdrawn, hpath, rfl⟩
      · rw [(hfailed _ _).1] at h
        cases h

/-- A run that fails keeps the files, unless it is broken off while it writes. -/
theorem kept_or_brokenOff (h : (runWith platform arguments stdin t).1.ending.exitCode ≠ 0) :
    (runWith platform arguments stdin t).2 = t ∨
      BrokenOff platform arguments stdin t (runWith platform arguments stdin t).2 := by
  rw [runWith] at h ⊢
  rcases hsave : (outcome platform arguments stdin t.view).save with - | saving
  · rw [saveIn_of_none hsave]
    exact .inl rfl
  obtain ⟨hending, request, found, hpending⟩ := pending_of_save hsave
  rcases saveIn_cases hsave with
    ⟨place, -, hsaved⟩ | ⟨-, hkept | ⟨place, left, htarget, hremnant, hleft⟩⟩
  · -- what is saved belongs to a run that succeeds
    rw [hsaved, Outcome.saved, hending] at h
    exact absurd rfl h
  · exact .inl hkept
  · refine .inr ⟨request, found, saving, place, left, hpending,
      (FileTree.target_eq_ok htarget).1, hremnant, ?_⟩
    rw [hleft]
    exact FileTree.wrote_fill htarget left

end

/-! ### What it takes to be broken off -/

/-- Whether no byte of the standard input is let through that is no text. -/
def Decoder.Intact (decoder : Decoder) (stdin : ByteArray) : Prop :=
  ∀ found, decoder.decode? stdin = some found → found.stray = []

/-- Bytes that are no text are not let through but refused. -/
theorem Decoder.intact_strict (stdin : ByteArray) : Decoder.strict.Intact stdin := by
  intro found h
  obtain ⟨text, -, rfl⟩ := Option.map_eq_some_iff.mp h
  rfl

theorem Decoder.intact_toUTF8 (decoder : Decoder) (text : String) :
    decoder.Intact text.toUTF8 := by
  intro found h
  obtain rfl := Option.some.inj (h.symm.trans (decoder.decode?_toUTF8 text))
  rfl

/-- Stand-ins come from the standard input only. -/
theorem stray_of_intact {decoder : Decoder} {builtIn : Bool} {input : Option String}
    {found : Decoded} (hintact : decoder.Intact stdin)
    (h : Finds decoder stdin t builtIn input found) : found.stray = [] := by
  obtain ⟨origin, -, hread⟩ := h
  cases origin with
  | builtIn =>
      obtain rfl := Except.ok.inj hread
      rfl
  | stdin =>
      rw [readSource, Decoder.read] at hread
      split at hread
      · cases hread
      · next source hsource =>
          obtain rfl := Except.ok.inj hread
          exact hintact source hsource
  | file path =>
      rw [readSource] at hread
      split at hread
      · cases hread
      · obtain ⟨text, -, rfl⟩ := map_eq_ok.mp hread
        rfl

/-- Where no byte is let through and no disk fails, no run is broken off. -/
theorem not_brokenOff {arguments : List String} {t' : FileTree}
    (hintact : platform.stdin.Intact stdin)
    (hdisk : ∀ place content, platform.cutOff? place content = none) :
    ¬ BrokenOff platform arguments stdin t t' := by
  rintro ⟨request, found, saving, place, left, hpending, -, hremnant, -⟩
  rcases hremnant with ⟨-, c, hc, -⟩ | ⟨size, hcut, -⟩
  · rw [hpending.stray, stray_of_intact hintact hpending.finds] at hc
    cases hc
  · rw [hdisk] at hcut
    cases hcut

/-! ### Runs of `render` -/

section

variable {arguments plainArguments : List String} {request : RenderRequest}
  (hcommand : platform.readCommand arguments = .ok (.render request))
include hcommand

/-- Without an output path a picture is printed. -/
theorem printed_of_drawn {found : Decoded} {svg : String} (houtput : request.output = none)
    (hfinds : Finds platform.stdin stdin t request.builtIn request.input found)
    (hdrawn : drawn platform.fonts request found.text = .ok svg) :
    (runWith platform arguments stdin t).1.ending.exitCode = 0 ∧
    (runWith platform arguments stdin t).1.stdout = platform.echo svg ++ "\n" := by
  obtain ⟨hending, hstdout, hsave⟩ := renderSource_of_drawn found hdrawn
  rw [houtput, Option.map_none] at hsave
  rw [runWith, outcome_render hcommand, onSource_of_finds hfinds, saveIn_of_none hsave, hending,
    hstdout, if_pos houtput]
  exact ⟨rfl, rfl⟩

/-- A run that succeeds with an output path fills the file that the path leads to
with the picture of what it finds. -/
theorem saved_of_success {path : String} (houtput : request.output = some path)
    (h : (runWith platform arguments stdin t).1.ending.exitCode = 0) :
    (runWith platform arguments stdin t).1.stdout = "" ∧ ∃ found svg place,
      Finds platform.stdin stdin t request.builtIn request.input found ∧
      drawn platform.fonts request found.text = .ok svg ∧
      t.target (.ofString path) = .ok place ∧
      (runWith platform arguments stdin t).2 = t.fill place svg.toUTF8 := by
  rw [runWith, outcome_render hcommand] at h ⊢
  rcases onSource_cases platform.stdin stdin t request.builtIn request.input with
    ⟨found, hfinds⟩ | hfailed
  · rw [onSource_of_finds hfinds] at h ⊢
    rcases hdrawn : drawn platform.fonts request found.text with fault | svg
    · obtain ⟨hexit, -, hsave⟩ := renderSource_of_fault found hdrawn
      rw [saveIn_of_none hsave, hexit] at h
      cases h
    · obtain ⟨-, hstdout, hsave⟩ := renderSource_of_drawn found hdrawn
      rw [houtput] at hsave hstdout
      rcases saveIn_cases hsave with
        ⟨place, htarget, hsaved⟩ | ⟨hcrashed, -⟩
      · rw [hsaved]
        exact ⟨hstdout, found, svg, place, hfinds, hdrawn, htarget, rfl⟩
      · rw [hcrashed] at h
        cases h
  · obtain ⟨hsave, hexit⟩ := hfailed request.verbose (renderSource platform request)
    rw [saveIn_of_none hsave] at h
    exact absurd h hexit

section

variable {found : Decoded} {svg path : String} {place : Place}
  (houtput : request.output = some path)
  (hfinds : Finds platform.stdin stdin t request.builtIn request.input found)
  (hdrawn : drawn platform.fonts request found.text = .ok svg)
include houtput hfinds hdrawn

/-- With an output path, saving the picture is all that is left of a run. -/
theorem runWith_of_drawn : ∃ o : Outcome, o.ending = .exited 0 ∧
    o.save = some { path := path, text := svg, stray := found.stray } ∧
    runWith platform arguments stdin t = o.saveIn platform t := by
  obtain ⟨hending, -, hsave⟩ := renderSource_of_drawn found hdrawn
  rw [houtput, Option.map_some] at hsave
  refine ⟨_, hending, hsave, ?_⟩
  rw [runWith, outcome_render hcommand, onSource_of_finds hfinds]

variable (htarget : t.target (.ofString path) = .ok place)
include htarget

/-- A picture without stand-ins is saved, if the disk takes it. -/
theorem saved_of_drawn (hclean : ∀ c ∈ found.stray, c ∉ svg.toList)
    (hdisk : platform.cutOff? place svg.toUTF8 = none) :
    (runWith platform arguments stdin t).1.ending.exitCode = 0 ∧
      (runWith platform arguments stdin t).2 = t.fill place svg.toUTF8 := by
  obtain ⟨o, hending, hsave, hrun⟩ := runWith_of_drawn hcommand houtput hfinds hdrawn
  have hcontent : (Saving.mk path svg found.stray).content? = some svg.toUTF8 := by
    rcases hcontent : (Saving.mk path svg found.stray).content? with - | content
    · obtain ⟨c, hc, hmem⟩ := content?_eq_none_iff.mp hcontent
      exact absurd hmem (hclean c hc)
    · rw [content?_eq_some hcontent]
  rw [hrun, Outcome.saveIn, hsave]
  simp only [htarget, hcontent, hdisk, Outcome.saved, hending, Ending.exitCode, and_self]

/-- A picture with a stand-in is not saved, and its file is emptied. -/
theorem emptied_of_drawn (hstray : ∃ c ∈ found.stray, c ∈ svg.toList) :
    (runWith platform arguments stdin t).1.ending.exitCode = 1 ∧
      (runWith platform arguments stdin t).2 = t.fill place ByteArray.empty := by
  obtain ⟨o, -, hsave, hrun⟩ := runWith_of_drawn hcommand houtput hfinds hdrawn
  have hcontent : (Saving.mk path svg found.stray).content? = none :=
    content?_eq_none_iff.mpr hstray
  rw [hrun, Outcome.saveIn, hsave]
  simp only [htarget, hcontent, Outcome.crashed, Ending.exitCode, and_self]

end

/-- A missing font stops a run at the first interaction, and makes no difference
if there is none. -/
theorem stopped_or_same {path source : String} (hfont : request.font = some path)
    (hpath : path ≠ "") (hlacks : platform.fonts.Lacks path) (houtput : request.output = none)
    (hplain : platform.readCommand plainArguments = .ok (.render { request with font := none }))
    (hreads : Reads stdin t request.builtIn request.input source) :
    ((∃ text ∈ splitLines source, (Line.classify text).isInteraction) ∧
      (runWith platform arguments stdin t).1.ending.exitCode = 1 ∧
      (runWith platform arguments stdin t).1.stdout = "") ∨
    ((∀ text ∈ splitLines source, ¬ (Line.classify text).isInteraction) ∧
      ∃ svg, drawn platform.fonts { request with font := none } source = .ok svg ∧
        ∀ args ∈ [arguments, plainArguments],
          (runWith platform args stdin t).1.ending.exitCode = 0 ∧
          (runWith platform args stdin t).1.stdout = platform.echo svg ++ "\n") := by
  obtain ⟨found, hlines, hfinds⟩ := finds_of_reads platform.stdin hreads
  by_cases h : ∃ text ∈ splitLines source, (Line.classify text).isInteraction
  · obtain ⟨e, he⟩ := drawn_of_lacks hfont hpath hlacks h
    rw [← drawn_congr hlines] at he
    obtain ⟨hexit, hstdout, hsave⟩ := renderSource_of_fault { text := found } he
    rw [runWith, outcome_render hcommand, onSource_of_finds hfinds, saveIn_of_none hsave]
    exact .inl ⟨h, hexit, hstdout⟩
  · push Not at h
    obtain ⟨svg, hsvg⟩ := Diagram.exists_picture_vacant (Line.readAll source)
      { theme := request.theme, transparent := some request.transparent }
    have hdrawn : ∀ font, drawn platform.fonts { request with font := font } source = .ok svg :=
      fun font => (drawn_of_vacant h).trans hsvg
    have prints : ∀ args font,
        platform.readCommand args = .ok (.render { request with font := font }) →
        (runWith platform args stdin t).1.ending.exitCode = 0 ∧
        (runWith platform args stdin t).1.stdout = platform.echo svg ++ "\n" :=
      fun args font hargs => printed_of_drawn hargs houtput hfinds
        ((drawn_congr hlines).trans (hdrawn font))
    refine .inr ⟨h, svg, hdrawn none, List.forall_mem_cons.mpr ⟨prints _ _ hcommand, ?_⟩⟩
    exact List.forall_mem_singleton.mpr (prints _ _ hplain)

end

/-- What can be relied on when charts are drawn from and into some files. -/
structure Dependable (platform : Platform) (stdin : ByteArray) (t : FileTree) : Prop where
  /-- A missing font stops a run exactly if there is an interaction; otherwise the
  run prints the picture that it prints without the font. -/
  font : ∀ {arguments plainArguments request path source},
    platform.readCommand arguments = .ok (.render request) →
    platform.readCommand plainArguments = .ok (.render { request with font := none }) →
    request.font = some path → path ≠ "" → t.canOpen (.exact path) = false →
    platform.fonts.Opens t path →
    request.output = none → Reads stdin t request.builtIn request.input source →
    (((runWith platform arguments stdin t).1.ending.exitCode = 1 ∧
        (runWith platform arguments stdin t).1.stdout = "") ↔
      ∃ text ∈ splitLines source, (Line.classify text).isInteraction) ∧
    ((∀ text ∈ splitLines source, ¬ (Line.classify text).isInteraction) →
      (runWith platform arguments stdin t).1.ending.exitCode = 0 ∧
      (runWith platform plainArguments stdin t).1.ending.exitCode = 0 ∧
      ∃ svg, drawn platform.fonts { request with font := none } source = .ok svg ∧
        (runWith platform arguments stdin t).1.stdout = platform.echo svg ++ "\n" ∧
        (runWith platform plainArguments stdin t).1.stdout = platform.echo svg ++ "\n")
  /-- A run that fails changes no file and adds none, unless it is broken off while
  it writes its picture. -/
  kept : ∀ arguments, (runWith platform arguments stdin t).1.ending.exitCode ≠ 0 →
    (runWith platform arguments stdin t).2 = t ∨
      BrokenOff platform arguments stdin t (runWith platform arguments stdin t).2
  /-- That takes bytes that are let through, or a disk that fails. -/
  undisturbed : ∀ arguments, platform.stdin.Intact stdin →
    (∀ place content, platform.cutOff? place content = none) →
    (runWith platform arguments stdin t).1.ending.exitCode ≠ 0 →
    (runWith platform arguments stdin t).2 = t
  /-- A run that succeeds with an output path prints nothing and changes nothing
  but the file that the path leads to.  That has the picture of what was read, of
  which the run without the path prints all but the control sequences. -/
  saved : ∀ {arguments plainArguments request path},
    platform.readCommand arguments = .ok (.render request) → request.output = some path →
    platform.readCommand plainArguments = .ok (.render { request with output := none }) →
    (runWith platform arguments stdin t).1.ending.exitCode = 0 →
    (runWith platform arguments stdin t).1.stdout = "" ∧ ∃ found svg place,
      Finds platform.stdin stdin t request.builtIn request.input found ∧
      drawn platform.fonts request found.text = .ok svg ∧
      (∀ source, Reads stdin t request.builtIn request.input source →
        drawn platform.fonts request source = .ok svg) ∧
      (runWith platform plainArguments stdin t).1.ending.exitCode = 0 ∧
      (runWith platform plainArguments stdin t).1.stdout = platform.echo svg ++ "\n" ∧
      (platform.Strips →
        (runWith platform plainArguments stdin t).1.stdout = plain svg ++ "\n" ∧
        (ControlFree svg.toList →
          (runWith platform plainArguments stdin t).1.stdout = svg ++ "\n")) ∧
      t.resolve (.ofString path) = .ok place ∧
      t.Wrote (runWith platform arguments stdin t).2 place svg.toUTF8 ∧
      ((runWith platform arguments stdin t).2.read (.ofString path) = .ok svg.toUTF8 ∨
        t.node? place = some .device)

/-- **Runs of `render` are dependable.**  On every platform a missing font is
noticed exactly if a name has to be measured; a run that fails keeps all files
but one that it was writing to; and one that succeeds writes the picture to its
output path and nothing else, also if the source is read from there. -/
theorem dependable (platform : Platform) (stdin : ByteArray) (t : FileTree) :
    Dependable platform stdin t where
  font := by
    intro arguments plainArguments request path source hcommand hplain hfont hpath hmissing
      hopens houtput hreads
    rcases stopped_or_same hcommand hfont hpath (hopens hmissing) houtput hplain hreads with
      ⟨h, hexit, hstdout⟩ | ⟨h, svg, hdrawn, hprints⟩
    · refine ⟨iff_of_true ⟨hexit, hstdout⟩ h, fun hnone => ?_⟩
      obtain ⟨text, htext, hinteraction⟩ := h
      exact absurd hinteraction (hnone text htext)
    · obtain ⟨hexit, hstdout⟩ := hprints arguments (by simp)
      obtain ⟨hexit', hstdout'⟩ := hprints plainArguments (by simp)
      refine ⟨iff_of_false ?_ (by push Not; exact h), fun _ =>
        ⟨hexit, hexit', svg, hdrawn, hstdout, hstdout'⟩⟩
      rw [hexit]
      simp
  kept := fun _ => kept_or_brokenOff
  undisturbed := fun _ hintact hdisk h =>
    (kept_or_brokenOff h).resolve_right (not_brokenOff hintact hdisk)
  saved := by
    intro arguments plainArguments request path hcommand houtput hplain h
    obtain ⟨hempty, found, svg, place, hfinds, hdrawn, htarget, hfilled⟩ :=
      saved_of_success hcommand houtput h
    obtain ⟨hplace, hdirectory⟩ := FileTree.target_eq_ok htarget
    have hwrote : t.Wrote (runWith platform arguments stdin t).2 place svg.toUTF8 := by
      rw [hfilled]
      exact FileTree.wrote_fill htarget svg.toUTF8
    -- without the output path the same is read and drawn, and then printed
    obtain ⟨hexit, hstdout⟩ := printed_of_drawn hplain rfl hfinds hdrawn
    refine ⟨hempty, found, svg, place, hfinds, hdrawn, fun source hreads => ?_, hexit, hstdout,
      fun hstrips => ?_, hplace, hwrote, hwrote.read hplace hdirectory⟩
    · obtain ⟨text, hlines, hfinds'⟩ := finds_of_reads platform.stdin hreads
      obtain rfl := hfinds.unique hfinds'
      exact (drawn_congr hlines).symm.trans hdrawn
    · rw [hstdout, hstrips]
      exact ⟨rfl, fun hfree => by rw [plain_eq_self_iff.mpr hfree]⟩

/-- One file with an interaction and one without: a font that is missing, an
output directory that is, and an output path that is the input. -/
theorem dependable_two_files :
    let t : FileTree :=
      { nodes := [(["a.txt"], .file "A -> B\n".toUTF8), (["b.txt"], .file ":title T\n".toUTF8)] }
    let run (arguments : List String) : Outcome × FileTree :=
      runWith (.standard t.view.canOpen) arguments ByteArray.empty t
    (run ["render", "--font", "gone.ttf", "a.txt"]).1.ending.exitCode = 1 ∧
    (run ["render", "--font", "gone.ttf", "b.txt"]).1.stdout = (run ["render", "b.txt"]).1.stdout ∧
    (run ["render", "b.txt", "-o", "gone/b.svg"]).2 = t ∧
    (run ["render", "b.txt", "-o", "b.txt"]).1.stdout = "" ∧
    ∃ svg, drawn (noFonts t.view.canOpen) {} ":title T\n" = .ok svg ∧
      (run ["render", "b.txt"]).1.stdout = plain svg ++ "\n" ∧
      (run ["render", "b.txt", "-o", "b.txt"]).2.read (.ofString "b.txt") = .ok svg.toUTF8 ∧
      (run ["render", "b.txt", "-o", "b.txt"]).2.node? ["a.txt"] = t.node? ["a.txt"] := by
  intro t run
  have hrun : ∀ arguments, run arguments =
      runWith (.standard t.view.canOpen) arguments ByteArray.empty t := fun _ => rfl
  simp only [hrun]
  have h := dependable (.standard t.view.canOpen) ByteArray.empty t
  have hgone : t.canOpen (.exact "gone.ttf") = false := by decide
  have hopens : (noFonts t.view.canOpen).Opens t "gone.ttf" := fun _ => noFonts_lacks _ _
  have hfont : ∀ path ∈ ["a.txt", "b.txt"], readCommand ["render", "--font", "gone.ttf", path] =
      .ok (.render { input := some path, font := some "gone.ttf" }) := by decide
  have hplain : ∀ path ∈ ["a.txt", "b.txt"], readCommand ["render", path] =
      .ok (.render { input := some path }) := by decide
  have hsaved : (Platform.standard t.view.canOpen).readCommand ["render", "b.txt", "-o", "b.txt"] =
      .ok (.render { input := some "b.txt", output := some "b.txt" }) := by decide
  have hreads : Reads ByteArray.empty t false (some "a.txt") "A -> B\n" :=
    ⟨.file "a.txt", by decide, rfl⟩
  have hreads' : Reads ByteArray.empty t false (some "b.txt") ":title T\n" :=
    ⟨.file "b.txt", by decide, rfl⟩
  -- the font is needed for `a.txt` and makes no difference for `b.txt`
  have hstopped := (h.font (hfont "a.txt" (by simp)) (hplain "a.txt" (by simp)) rfl (by decide)
    hgone hopens rfl hreads).1.mpr (by decide)
  obtain ⟨-, -, svg, hdrawn, hprinted, hprinted'⟩ := (h.font (hfont "b.txt" (by simp))
    (hplain "b.txt" (by simp)) rfl (by decide) hgone hopens rfl hreads').2 (by decide)
  have hkept := h.undisturbed ["render", "b.txt", "-o", "gone/b.svg"] (Decoder.intact_strict _)
    (fun _ _ => rfl) (by decide +kernel)
  -- `b.txt` is read before it is written
  have htarget : t.target (.ofString "b.txt") = .ok ["b.txt"] := by rfl
  have hfinds : Finds .strict ByteArray.empty t false (some "b.txt") { text := ":title T\n" } :=
    ⟨.file "b.txt", by decide, by decide +kernel⟩
  have hexit := (saved_of_drawn hsaved rfl hfinds hdrawn htarget (by simp) rfl).1
  obtain ⟨hempty, _, svg', place, -, -, hpicture, -, -, hstdout, hplace, hwrote, hread⟩ :=
    h.saved hsaved rfl (hplain "b.txt" (by simp)) hexit
  obtain rfl : ["b.txt"] = place := Except.ok.inj hplace
  refine ⟨hstopped.1, hprinted.trans hprinted'.symm, hkept, hempty, svg', hpicture _ hreads',
    (hstdout (Platform.strips_standard _)).1, ?_, ?_⟩
  · exact hread.resolve_right fun hdevice => nomatch hdevice
  · exact hwrote.others ["a.txt"] (by decide)

/-! ### Where a text is not printed or saved as it is -/

theorem infix_print {token : Markup.Token} {tokens : List Markup.Token} (h : token ∈ tokens) :
    token.chars <:+: (Markup.print tokens).toList := by
  obtain ⟨before, later, rfl⟩ := List.append_of_mem h
  rw [Markup.print, String.toList_ofList, List.flatMap_append, List.flatMap_cons]
  exact ⟨_, _, by rw [List.append_assoc]⟩

/-- What is drawn of a source without interactions stands in its picture. -/
theorem exists_drawn_of_token (fonts : Fonts) (token : Markup.Token) (request : RenderRequest)
    (source : String)
    (hvacant : ∀ text ∈ splitLines source, ¬ (Line.classify text).isInteraction)
    (htoken : let d := Diagram.vacant (Line.readAll source)
      let appearance : Appearance :=
        { theme := request.theme, transparent := some request.transparent }
      (Drawing.tokens d (appearance.palette d.header) "Inter" request.transparent).map
        (fun tokens => decide (token ∈ tokens)) = .ok true) :
    ∃ svg, drawn fonts request source = .ok svg ∧ token.chars <:+: svg.toList := by
  obtain ⟨tokens, htokens, hmem⟩ := map_eq_ok.mp htoken
  refine ⟨Markup.print tokens, (drawn_of_vacant hvacant).trans ?_,
    infix_print (of_decide_eq_true hmem)⟩
  show (Diagram.draw _ _ "Inter" request.transparent).mapError Fault.arithmetic = _
  rw [Diagram.draw, htokens]
  rfl

/-- A title in red is saved as it is, and loses its color where it is printed.  A
title with a byte that is let through is not saved, and what its file had is
lost. -/
theorem color_lost_and_file_emptied :
    let red := ":title \x1b[31mT\n".toUTF8
    let broken : ByteArray := ⟨":title ".toUTF8.data ++ #[0xff, 0x0a]⟩
    let t : FileTree := { nodes := [(["out.svg"], .file "old".toUTF8)] }
    let strict := Platform.standard t.view.canOpen
    let escaping := { strict with stdin := .escaping }
    (∃ svg, (runWith strict ["render", "-o", "out.svg"] red t).1.ending.exitCode = 0 ∧
      (runWith strict ["render", "-o", "out.svg"] red t).2.read (.ofString "out.svg") =
        .ok svg.toUTF8 ∧
      (runWith strict ["render"] red t).1.stdout ≠ svg ++ "\n") ∧
    (runWith escaping ["render", "-o", "out.svg"] broken t).1.ending.exitCode = 1 ∧
    (runWith escaping ["render", "-o", "out.svg"] broken t).2.read (.ofString "out.svg") =
      .ok ByteArray.empty := by
  intro red broken t strict escaping
  have htarget : t.target (.ofString "out.svg") = .ok ["out.svg"] := by rfl
  constructor
  · have hplain : strict.readCommand ["render"] = .ok (.render {}) := by decide
    have hsaved : strict.readCommand ["render", "-o", "out.svg"] =
        .ok (.render { output := some "out.svg" }) := by decide
    have hfinds : Finds strict.stdin red t false none { text := ":title \x1b[31mT\n" } :=
      ⟨.stdin, rfl, by decide +kernel⟩
    obtain ⟨svg, hdrawn, hlabel⟩ := exists_drawn_of_token strict.fonts (.label "\x1b[31mT")
      { output := some "out.svg" } ":title \x1b[31mT\n" (by decide) (by decide +kernel)
    obtain ⟨hexit, hfilled⟩ := saved_of_drawn hsaved rfl hfinds hdrawn htarget (by simp) rfl
    refine ⟨svg, hexit, ?_, ?_⟩
    · rw [hfilled]
      rfl
    · obtain ⟨-, hstdout⟩ := printed_of_drawn hplain rfl hfinds hdrawn
      rw [hstdout, Platform.strips_standard]
      intro hsame
      have hsequence : controlLength? (Markup.Token.label "\x1b[31mT").chars = some 5 := by decide
      refine not_controlFree_of_infix hsequence hlabel (plain_eq_self_iff.mp ?_)
      simpa using hsame
  · let title := String.singleton (standIn 0xff)
    let found : Decoded := { text := ":title " ++ title ++ "\n", stray := [standIn 0xff] }
    have hsaved : escaping.readCommand ["render", "-o", "out.svg"] =
        .ok (.render { output := some "out.svg" }) := by decide
    have hfinds : Finds escaping.stdin broken t false none found :=
      ⟨.stdin, rfl, by decide +kernel⟩
    obtain ⟨svg, hdrawn, hlabel⟩ := exists_drawn_of_token escaping.fonts (.label title)
      { output := some "out.svg" } found.text (by decide +kernel) (by decide +kernel)
    obtain ⟨hexit, hfilled⟩ := emptied_of_drawn hsaved rfl hfinds hdrawn htarget
      ⟨standIn 0xff, List.mem_singleton.mpr rfl, hlabel.subset (by decide +kernel)⟩
    refine ⟨hexit, ?_⟩
    rw [hfilled]
    rfl

end SequenceChart.Cli
