/-
SequenceChart/Proofs/Cli/Input.lean

What a command reads.

`Finds` says what a command makes of the bytes at the place that its arguments
name.  `Reads` says that these bytes are a source text: the built-in example, or
a text in UTF-8 on the standard input or in a file.  Of a source text a command
finds the text with its newlines unified, without any stand-in, and the lines of
both are the same (`finds_of_reads`).  Both commands only look at the lines, so
what they do is what they do on the source, wherever it comes from and however
other bytes would be decoded.
-/
import SequenceChart.Proofs.Source

namespace SequenceChart.Cli

open Text

/-! ### Sources -/

/-- Whether the source text is what there is to read. -/
def Origin.Supplies (stdin : ByteArray) (t : FileTree) (source : String) : Origin → Prop
  | .builtIn => source = exampleSource
  | .stdin => stdin = source.toUTF8
  | .file path => t.read (.ofString path) = .ok source.toUTF8

/-- Whether a command with these arguments finds the source text. -/
def Reads (stdin : ByteArray) (t : FileTree) (builtIn : Bool) (input : Option String)
    (source : String) : Prop :=
  ∃ origin, originOf builtIn input = .ok origin ∧ origin.Supplies stdin t source

/-- Whether a command with these arguments makes this of what there is to read. -/
def Finds (decoder : Decoder) (stdin : ByteArray) (t : FileTree) (builtIn : Bool)
    (input : Option String) (found : Decoded) : Prop :=
  ∃ origin, originOf builtIn input = .ok origin ∧
    readSource decoder stdin t.view origin = .ok found

variable {decoder : Decoder} {stdin : ByteArray} {t : FileTree} {source : String}
  {builtIn : Bool} {input : Option String}

/-- Bytes that are a text in UTF-8 are read as this text, up to its newlines. -/
theorem decode_toUTF8 (source : String) : decode source.toUTF8 = .ok (unifyNewlines source) := by
  rw [decode, fromUTF8?_toUTF8]

/-- However other bytes are decoded, those of a text are read as this text. -/
theorem read_toUTF8 (decoder : Decoder) (source : String) :
    decoder.read source.toUTF8 = .ok { text := unifyNewlines source } := by
  rw [Decoder.read, decoder.decode?_toUTF8]

/-- A source text is found as it is, up to its newlines. -/
theorem finds_of_reads (decoder : Decoder) (h : Reads stdin t builtIn input source) :
    ∃ text, splitLines text = splitLines source ∧
      Finds decoder stdin t builtIn input { text := text } := by
  -- the three origins supply the same text in different ways
  obtain ⟨origin, horigin, hsupplies⟩ := h
  cases origin with
  | builtIn => exact ⟨exampleSource, congrArg splitLines (Eq.symm hsupplies), .builtIn, horigin, rfl⟩
  | stdin =>
      obtain rfl : stdin = source.toUTF8 := hsupplies
      exact ⟨_, splitLines_unifyNewlines source, .stdin, horigin, read_toUTF8 decoder source⟩
  | file path =>
      have hread : t.view.read path = .ok source.toUTF8 := hsupplies
      refine ⟨_, splitLines_unifyNewlines source, .file path, horigin, ?_⟩
      rw [readSource, hread]
      simp only [decode_toUTF8]
      rfl

/-- There is at most one thing to find. -/
theorem Finds.unique {found found' : Decoded} (h : Finds decoder stdin t builtIn input found)
    (h' : Finds decoder stdin t builtIn input found') : found = found' := by
  obtain ⟨origin, horigin, hfound⟩ := h
  obtain ⟨origin', horigin', hfound'⟩ := h'
  obtain rfl := Except.ok.inj (horigin.symm.trans horigin')
  exact Except.ok.inj (hfound.symm.trans hfound')

/-- A command is applied to what it finds. -/
theorem onSource_of_finds {found : Decoded} (h : Finds decoder stdin t builtIn input found)
    (verbose : Bool) (apply : Decoded → Outcome) :
    onSource decoder stdin t.view builtIn input verbose apply = apply found := by
  obtain ⟨origin, horigin, hfound⟩ := h
  rw [onSource, horigin]
  simp only [hfound]

/-! ### Commands -/

variable {σ : Type} {platform : Platform} {text : String}

/-- A chart is read from lines, whatever text they stand in. -/
theorem ofText_congr (h : splitLines text = splitLines source) (measurer : Measurer σ)
    (layout : Layout) : Diagram.ofText measurer layout text =
      Diagram.ofText measurer layout source := by
  rw [Diagram.ofText, h, Diagram.ofText]

theorem checkSource_congr (h : splitLines text = splitLines source) (request : CheckRequest) :
    checkSource platform request { text := text } =
      checkSource platform request { text := source } := by
  rw [checkSource, ofText_congr h, checkSource]

/-- `check` has nothing to save. -/
theorem save_checkSource (request : CheckRequest) (found : Decoded) :
    (checkSource platform request found).save = none := by
  rw [checkSource]
  rcases (Diagram.ofText (σ := Unit) .estimated {} found.text ()).result with fault | d
  · cases fault <;> rfl
  · rfl

/-- Without anything to save the files stay. -/
theorem saveIn_of_none {o : Outcome} (h : o.save = none) : o.saveIn platform t = (o, t) := by
  rw [Outcome.saveIn, h]

section

variable {arguments : List String}

theorem outcome_check {request : CheckRequest}
    (hcommand : platform.readCommand arguments = .ok (.check request)) :
    outcome platform arguments stdin t.view =
      onSource platform.stdin stdin t.view request.builtIn request.input request.verbose
        (checkSource platform request) := by
  rw [outcome, hcommand]
  rfl

theorem outcome_render {request : RenderRequest}
    (hcommand : platform.readCommand arguments = .ok (.render request)) :
    outcome platform arguments stdin t.view =
      onSource platform.stdin stdin t.view request.builtIn request.input request.verbose
        (renderSource platform request) := by
  rw [outcome, hcommand]
  rfl

/-- `check` reports on the source, wherever it stands. -/
theorem outcome_check_of_reads {request : CheckRequest}
    (hcommand : platform.readCommand arguments = .ok (.check request))
    (h : Reads stdin t request.builtIn request.input source) :
    outcome platform arguments stdin t.view =
      checkSource platform request { text := source } := by
  obtain ⟨text, hlines, hfinds⟩ := finds_of_reads platform.stdin h
  rw [outcome_check hcommand, onSource_of_finds hfinds, checkSource_congr hlines]

end

end SequenceChart.Cli
