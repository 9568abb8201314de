/-
SequenceChart/Proofs/Cli/Report.lean

What `check` reports.

Each line of a source that is ignored is listed once, in order, under its number
among the lines; one line of counts follows.  No line that is listed can break
in two: it is a piece of one line of the source, between its outer blanks and
without its terminal control sequences, and neither trimming nor stripping
brings in a line break.  So the output is cut into exactly these lines again
(`splitLines_unlines`), and `Reports` says all there is to say about a run of
`check` on a chart that can be built (`reports_of_reads`).
-/
import SequenceChart.Proofs.Cli.Input
import SequenceChart.Proofs.Label
import SequenceChart.Proofs.Line.Grammar
import SequenceChart.Proofs.Text.Terminal
import SequenceChart.Proofs.Text.Trim

namespace SequenceChart

/-! ### Lines that stay lines -/

namespace Text

variable {s t : List Char}

theorem Solid.of_subset (hs : Solid s) (h : t ⊆ s) : Solid t :=
  fun c hc => hs c (h hc)

theorem Solid.append (hs : Solid s) (ht : Solid t) : Solid (s ++ t) := by
  intro c hc
  rcases List.mem_append.mp hc with hc | hc
  · exact hs c hc
  · exact ht c hc

/-- Trimming brings in no line break. -/
theorem solid_trim {s : String} (hs : Solid s.toList) : Solid (trim s).toList := by
  rw [trim, String.toList_ofList]
  exact hs.of_subset (trimChars_isInfix s.toList).subset

theorem solid_plain {s : String} (hs : Solid s.toList) : Solid (plain s).toList := by
  rw [plain, String.toList_ofList]
  exact hs.of_subset (plainChars_sublist s.toList).subset

/-- Lines that are printed one after the other are found again. -/
theorem splitLines_unlines {lines : List String} (h : ∀ line ∈ lines, Solid line.toList) :
    splitLines (Cli.unlines lines) = lines := by
  induction lines with
  | nil => rfl
  | cons line lines ih =>
      have hsolid : Solid line.toList := h line (by simp)
      have hrest : splitLines (Cli.unlines lines) = lines := ih fun l hl => h l (by simp [hl])
      have hfeed : IsTerminator ['\n'] := .inr ⟨'\n', by decide, rfl⟩
      -- the first line with its line feed stands in front
      have hchars : (Cli.unlines (line :: lines)).toList =
          line.toList ++ (['\n'] ++ (Cli.unlines lines).toList) := by
        simp [Cli.unlines]
      rw [splitLines, hchars, linesOf_solid_append hsolid, linesOf_terminator_append hfeed (by simp),
        foldr_consToHead_cons, List.append_nil, List.map_cons, String.ofList_toList]
      exact congrArg (line :: ·) hrest

end Text

/-! ### Texts that are printed as they are -/

namespace Text

/-- Whether a text has neither line breaks nor escape characters. -/
def Inert (s : String) : Prop :=
  ∀ c ∈ s.toList, ¬ isLineBreak c ∧ c ≠ '\x1b'

instance (s : String) : Decidable (Inert s) :=
  decidable_of_iff (s.toList.all fun c => ! isLineBreak c && c != '\x1b') (by simp [Inert])

namespace Inert

variable {s t : String}

theorem append (hs : Inert s) (ht : Inert t) : Inert (s ++ t) := by
  intro c hc
  rw [String.toList_append] at hc
  rcases List.mem_append.mp hc with hc | hc
  · exact hs c hc
  · exact ht c hc

/-- A digit neither breaks a line nor starts a control sequence. -/
theorem of_isDigit {c : Char} (h : c.isDigit) : ¬ isLineBreak c ∧ c ≠ '\x1b' := by
  constructor
  -- no line break is a digit, by the code points
  · intro hbreak
    have hlow : '0'.val.toNat = 48 := rfl
    have hhigh : '9'.val.toNat = 57 := rfl
    have hval : c.toNat = c.val.toNat := rfl
    simp only [Char.isDigit, Bool.and_eq_true, decide_eq_true_eq, ge_iff_le,
      UInt32.le_iff_toNat_le] at h
    simp only [isLineBreak, List.contains_eq_mem, decide_eq_true_eq, List.mem_cons,
      List.not_mem_nil, or_false] at hbreak
    omega
  · rintro rfl
    exact absurd h (by decide)

theorem toString (n : Nat) : Inert (toString n) := by
  intro c hc
  have hmem : c ∈ Nat.toDigits 10 n := by
    rw [← String.toList_ofList (l := Nat.toDigits 10 n)]
    exact hc
  exact of_isDigit (Nat.isDigit_of_mem_toDigits (by decide) (by decide) hmem)

theorem solid (h : Inert s) : Solid s.toList :=
  fun c hc => (h c hc).1

/-- An inert text is printed in front of whatever follows it. -/
theorem plain_append (h : Inert s) (t : String) : plain (s ++ t) = s ++ plain t :=
  Text.plain_append (fun hm => (h _ hm).2 rfl) t

theorem plain_eq_self (h : Inert s) : plain s = s :=
  Text.plain_eq_self fun hm => (h _ hm).2 rfl

end Inert

end Text

theorem Number.ofList_integerText (n : Nat) : String.ofList (integerText n) = toString n := by
  have hn : ¬ (n : Int) < 0 := by omega
  rw [integerText, if_neg hn]
  rfl

namespace Line

open Text

/-- The lines of a source that are ignored, with their numbers. -/
def ignored (source : String) : List (String × Nat) :=
  (splitLines source).zipIdx.filter fun (text, _) => (classify text).isIssue

/-- The issues of a source are its ignored lines, with their numbers. -/
theorem issues_readAll (source : String) :
    issues (readAll source) = (ignored source).map fun (text, k) => classify text k := by
  rw [issues, readAll, classifyAll, List.filter_map, ignored]
  refine congrArg _ (List.filter_congr fun x _ => ?_)
  exact isIssue_classify x.1 x.2

theorem mem_splitLines_of_mem_ignored {source : String} {x : String × Nat}
    (h : x ∈ ignored source) : x.1 ∈ splitLines source :=
  List.fst_mem_of_mem_zipIdx (List.mem_of_mem_filter h)

/-- Something is ignored exactly if one of the lines is an issue. -/
theorem ignored_ne_nil_iff {source : String} :
    ignored source ≠ [] ↔ ∃ text ∈ splitLines source, (classify text).isIssue := by
  rw [Ne, ignored, List.filter_eq_nil_iff]
  push Not
  constructor
  · rintro ⟨x, hx, hissue⟩
    exact ⟨x.1, List.fst_mem_of_mem_zipIdx hx, hissue⟩
  · rintro ⟨text, htext, hissue⟩
    obtain ⟨k, hk⟩ := List.mem_iff_getElem?.mp htext
    exact ⟨(text, k), List.mk_mem_zipIdx_iff_getElem?.mpr hk, hissue⟩

end Line

/-! ### What is printed -/

namespace Cli

open Text Line

/-- An ignored line, as it is printed. -/
def listing (x : String × Nat) : String :=
  "line " ++ toString x.2 ++ ": " ++ plain (trim x.1)

/-- The counts of a source: its distinct names, its interaction lines, and the
lines that are ignored. -/
def counts (source : String) : String :=
  toString (firstMentions (readAll source)).length ++ " participants, " ++
    toString (interactions (readAll source)).length ++ " interactions, " ++
    toString (ignored source).length ++ " issues"

theorem inert_listingHead (k : Nat) : Inert ("line " ++ toString k ++ ": ") :=
  (Inert.append (by decide) (.toString k)).append (by decide)

theorem inert_counts (source : String) : Inert (counts source) :=
  (((((Inert.toString _).append (by decide)).append (.toString _)).append (by decide)).append
    (.toString _)).append (by decide)

theorem solid_listing {x : String × Nat} (h : Solid x.1.toList) : Solid (listing x).toList := by
  rw [listing, String.toList_append]
  exact (inert_listingHead x.2).solid.append (solid_plain (solid_trim h))

/-- The line of an issue keeps all but the control sequences of its text. -/
theorem plain_issueLine (text : String) (k : Nat) :
    plain (issueLine (classify text k)) = listing (text, k) := by
  have htext : (classify text k).text = text := (conforms_classify text k).text_eq
  rw [issueLine, number_classify, Number.ofList_integerText, htext,
    (inert_listingHead k).plain_append, listing]

section

variable {source : String} {d : Diagram}
  (h : (Diagram.ofText (σ := Unit) .estimated {} source ()).result = .ok d)
include h

theorem issues_ofText : d.issues = (ignored source).map fun (text, k) => classify text k := by
  obtain ⟨-, -, -, -, -, -, hissues, -⟩ := Diagram.build_result_ok h
  exact hissues.trans (issues_readAll source)

/-- The three lengths of a chart are the counts of its source. -/
theorem summaryLine_ofText : summaryLine d = counts source := by
  obtain ⟨_, hps, hbound, -, -, -, -, -⟩ := Diagram.build_result_ok h
  have hnames := congrArg List.length (map_name_of_resolveParticipants hps)
  have hinteractions := length_bindLines hbound
  have hissues := congrArg List.length (issues_ofText h)
  rw [List.length_map] at hnames hissues
  simp only [summaryLine, Number.ofList_integerText, hnames, hinteractions, hissues]
  rfl

end

/-! ### Runs of `check` -/

/-- What a run of `check` leaves behind, for the chart that is built of a
source. -/
structure Reports (source : String) (d : Diagram) (outcome : Outcome) : Prop where
  /-- The issues of the chart are the lines that are ignored, in order. -/
  issues : d.issues.map (fun line => (line.text, line.number)) =
    (ignored source).map fun (text, k) => (text, (k : Int))
  /-- One line for each of them, then the counts, and nothing else. -/
  lines : splitLines outcome.stdout = (ignored source).map listing ++ [counts source]
  /-- Every line is ended by a line feed. -/
  ended : outcome.stdout = unlines (splitLines outcome.stdout)
  /-- Lines without control sequences are listed letter by letter. -/
  verbatim : ∀ x ∈ ignored source, ControlFree (trim x.1).toList →
    listing x = "line " ++ toString x.2 ++ ": " ++ trim x.1
  exits : outcome.ending = .exited 0 ∨ outcome.ending = .exited 1
  exitCode : outcome.ending.exitCode = 1 ↔ ∃ text ∈ splitLines source, (classify text).isIssue

/-- What `check` prints of a chart is its report. -/
theorem reports_checkSource {platform : Platform} (hstrips : platform.Strips)
    (request : CheckRequest) {source : String} {d : Diagram}
    (h : (Diagram.ofText (σ := Unit) .estimated {} source ()).result = .ok d) :
    Reports source d (checkSource platform request { text := source }) := by
  have hissues := issues_ofText h
  have hstdout : (checkSource platform request { text := source }).stdout =
      unlines ((ignored source).map listing ++ [counts source]) := by
    -- each issue is listed by its number and the text of its line
    rw [checkSource]
    simp only [h]
    rw [Platform.printed, List.map_append, List.map_singleton, summaryLine_ofText h, hstrips,
      (inert_counts source).plain_eq_self, hissues, List.map_map, List.map_map]
    refine congrArg (fun lines => unlines (lines ++ _)) (List.map_congr_left fun x _ => ?_)
    exact (hstrips _).trans (plain_issueLine x.1 x.2)
  have hending : (checkSource platform request { text := source }).ending =
      .exited (if (ignored source).isEmpty then 0 else 1) := by
    rw [checkSource]
    simp only [h, hissues, List.isEmpty_map]
  have hlines : splitLines (checkSource platform request { text := source }).stdout =
      (ignored source).map listing ++ [counts source] := by
    rw [hstdout]
    -- neither a listed line nor the line of counts has a line break
    refine splitLines_unlines fun line hline => ?_
    rcases List.mem_append.mp hline with hline | hline
    · obtain ⟨x, hx, rfl⟩ := List.mem_map.mp hline
      exact solid_listing (solid_of_mem_splitLines (mem_splitLines_of_mem_ignored hx))
    · rw [List.mem_singleton.mp hline]
      exact (inert_counts source).solid
  refine
    { issues := ?_
      lines := hlines
      ended := by rw [hlines, hstdout]
      verbatim := ?_
      exits := ?_
      exitCode := ?_ }
  · rw [hissues, List.map_map]
    refine List.map_congr_left fun x _ => ?_
    exact Prod.ext (conforms_classify x.1 x.2).text_eq (number_classify x.1 x.2)
  · intro x _ hfree
    rw [listing, plain_eq_self_iff.mpr hfree]
  · rw [hending]
    split
    · exact .inl rfl
    · exact .inr rfl
  · rw [hending, ← ignored_ne_nil_iff]
    cases ignored source <;> simp [Ending.exitCode]

/-- **What `check` reports.**  On a source whose chart can be built, wherever it
is read from, `check` lists the ignored lines and the counts, and nothing else;
it ends with code 1 exactly if there is an ignored line, and it changes no
file. -/
theorem reports_of_reads (platform : Platform) (hstrips : platform.Strips)
    {arguments : List String} {request : CheckRequest} {stdin : ByteArray} {t : FileTree}
    {source : String} {d : Diagram}
    (hcommand : platform.readCommand arguments = .ok (.check request))
    (hreads : Reads stdin t request.builtIn request.input source)
    (h : (Diagram.ofText (σ := Unit) .estimated {} source ()).result = .ok d) :
    Reports source d (runWith platform arguments stdin t).1 ∧
      (runWith platform arguments stdin t).2 = t := by
  rw [runWith, outcome_check_of_reads hcommand hreads, saveIn_of_none (save_checkSource _ _)]
  exact ⟨reports_checkSource hstrips request h, rfl⟩

/-- A file with five kinds of newlines and three ignored lines: one is padded,
one sets nothing, and one is in red. -/
theorem reports_of_reads_mixed :
    let source := "A -> B\r\n  -> B \r:colour red\u2028A --> C: hi\n\x0bin \x1b[31mred"
    let t : FileTree := { nodes := [(["chart.txt"], .file source.toUTF8)] }
    let arguments := ["check", "-v", "chart.txt"]
    ∃ d : Diagram, (Diagram.ofText (σ := Unit) .estimated {} source ()).result = .ok d ∧
      splitLines (run arguments ByteArray.empty t).1.stdout =
        ["line 1: -> B", "line 2: :colour red", "line 5: in red",
          "3 participants, 2 interactions, 3 issues"] ∧
      Reports source d (run arguments ByteArray.empty t).1 ∧
      (run arguments ByteArray.empty t).2 = t := by
  intro source t arguments
  have hbuilt : (Diagram.ofText (σ := Unit) .estimated {} source ()).result.map
      (fun d => d.issues.length) = .ok 3 := by
    decide +kernel
  obtain ⟨d, hd, -⟩ := map_eq_ok.mp hbuilt
  have hcommand : readCommand arguments =
      .ok (.check { input := some "chart.txt", verbose := true }) := by decide
  have hreads : Reads ByteArray.empty t false (some "chart.txt") source :=
    ⟨.file "chart.txt", by decide, rfl⟩
  have hreports := reports_of_reads (.standard t.view.canOpen) (Platform.strips_standard _)
    hcommand hreads hd
  exact ⟨d, hd, by decide +kernel, hreports⟩

/-- An ignored line in red is not listed as it stands in the source. -/
theorem listing_loses_color :
    let source := "bad\x1b[31m line\n"
    ∃ d : Diagram, (Diagram.ofText (σ := Unit) .estimated {} source ()).result = .ok d ∧
      splitLines (run ["check"] source.toUTF8 {}).1.stdout ≠
        (d.issues.map fun line => "line " ++ toString line.number ++ ": " ++ trim line.text) ++
          [counts source] := by
  intro source
  have hbuilt : (Diagram.ofText (σ := Unit) .estimated {} source ()).result.map
      (fun d => d.issues.map fun line => "line " ++ toString line.number ++ ": " ++ trim line.text) =
        .ok ["line 0: bad\x1b[31m line"] := by
    decide +kernel
  obtain ⟨d, hd, hissues⟩ := map_eq_ok.mp hbuilt
  refine ⟨d, hd, ?_⟩
  rw [hissues]
  decide +kernel

end Cli

end SequenceChart
