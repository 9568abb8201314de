/-
SequenceChart/Proofs/Role.lean

What each line of a source is for.

Four passes look at the lines of a chart: one reports issues, one gathers the
header, and two resolve participants and interactions.  Each pass picks its
lines by a test of its own.  Here the tests are put side by side as roles: a
line that was read from a source plays exactly one of them
(`existsUnique_role`), so that no two passes take the same line and none is
overlooked.  A built diagram accounts for its source: its issues and its
interactions are numbered by the lines that play these roles, in order, and
carry what stands on the lines (`Diagram.accounts_of_source`).
-/
import SequenceChart.Proofs.Coherence
import SequenceChart.Proofs.Line.Written

namespace SequenceChart

namespace Line

/-! ### Roles -/

/-- What a line contributes to a chart. -/
inductive Role where
  /-- Nothing is read from the line. -/
  | silent
  /-- The line sets a field of the header. -/
  | header
  | issue
  | interaction
  deriving DecidableEq, Repr

/-- Whether a line is taken for a role, by the test of the pass in question. -/
def Plays (line : Line) : Role → Prop
  | .silent => line.kind = .blank ∨ line.kind = .comment
  | .header => ∃ d, Header.directiveOf? line = some d ∧ d.kind ≠ .unknown
  | .issue => line.isIssue
  | .interaction => line.isInteraction

/-- The role of a line by its kind; only a line that claims to be a directive
and holds none has no role. -/
def role? (line : Line) : Option Role :=
  match line.kind with
  | .blank | .comment => some .silent
  | .directive => line.directive.map fun d => if d.kind = .unknown then .issue else .header
  | .interaction | .interactionWithMessage => some .interaction
  | .invalid => some .issue

/-- The tests of the passes agree on one role for each line. -/
theorem plays_iff {line : Line} {role : Role} : line.Plays role ↔ line.role? = some role := by
  rcases hk : line.kind with - | - | - | - | - | -
  case directive =>
    rcases hd : line.directive with - | d
    · cases role <;> simp [Plays, role?, isIssue, isInteraction, Header.directiveOf?, hk, hd]
    · by_cases hunknown : d.kind = .unknown <;> cases role <;>
        simp [Plays, role?, isIssue, isInteraction, Header.directiveOf?, hk, hd, hunknown]
  all_goals cases role <;> simp [Plays, role?, isIssue, isInteraction, Header.directiveOf?, hk]

/-- Every line that was read has a role, for one that claims to be a directive
holds one. -/
theorem exists_role?_classify (text : String) (number : Int) :
    ∃ role, (classify text number).role? = some role := by
  rcases hk : (classify text number).kind with - | - | - | - | - | -
  case directive =>
    obtain ⟨d, hd, -⟩ := (conforms_classify text number).reads_directive hk
    exact ⟨_, by rw [role?, hk, hd]; rfl⟩
  all_goals exact ⟨_, by rw [role?, hk]⟩

/-- A line plays one role. -/
theorem existsUnique_role (text : String) (number : Int) :
    ∃! role, (classify text number).Plays role := by
  obtain ⟨role, hrole⟩ := exists_role?_classify text number
  simp only [plays_iff, hrole]
  exact ⟨role, rfl, fun role' h => (Option.some.inj h).symm⟩

/-! ### Numbered lines -/

variable {texts : List String}

/-- A line is one of the texts, under its number. -/
theorem mem_classifyAll {line : Line} :
    line ∈ classifyAll texts ↔
      ∃ (j : Nat) (text : String), texts[j]? = some text ∧ line = classify text j := by
  rw [classifyAll, List.mem_map]
  constructor
  · rintro ⟨⟨text, j⟩, hmem, rfl⟩
    exact ⟨j, text, List.mk_mem_zipIdx_iff_getElem?.mp hmem, rfl⟩
  · rintro ⟨j, text, hj, rfl⟩
    exact ⟨(text, j), List.mk_mem_zipIdx_iff_getElem?.mpr hj, rfl⟩

theorem number_classifyAll_increasing (texts : List String) :
    (classifyAll texts).Pairwise fun line line' => line.number < line'.number := by
  rw [List.pairwise_iff_getElem]
  intro i j hi hj hij
  simp only [classifyAll, List.getElem_map, List.getElem_zipIdx, number_classify]
  omega

/-- The numbers `ks` are, in increasing order, those of the lines that play a
role. -/
structure Numbers (texts : List String) (role : Role) (ks : List Int) : Prop where
  increasing : ks.Pairwise (· < ·)
  exact : ∀ k, k ∈ ks ↔ ∃ (j : Nat) (text : String),
    k = j ∧ texts[j]? = some text ∧ (classify text j).Plays role

/-- A pass that picks the lines of a role keeps their numbers in order. -/
theorem numbers_filter {role : Role} {test : Line → Bool}
    (htest : ∀ line, test line ↔ line.Plays role) :
    Numbers texts role (((classifyAll texts).filter test).map number) where
  increasing := by
    rw [List.pairwise_map]
    exact (number_classifyAll_increasing texts).filter _
  exact := by
    intro k
    simp only [List.mem_map, List.mem_filter, mem_classifyAll, htest]
    constructor
    · rintro ⟨-, ⟨⟨j, text, hj, rfl⟩, hrole⟩, rfl⟩
      exact ⟨j, text, number_classify text j, hj, hrole⟩
    · rintro ⟨j, text, rfl, hj, hrole⟩
      exact ⟨_, ⟨⟨j, text, hj, rfl⟩, hrole⟩, number_classify text j⟩

end Line

/-! ### What the interactions keep of their lines -/

section

variable {ps : List Participant} {lines : List Line} {is : List Interaction}

theorem lineNumber_bindLine {line : Line} {row : Nat} {i : Interaction}
    (h : bindLine ps line row = .ok i) : i.lineNumber = line.number := by
  obtain ⟨_, _, -, -, rfl⟩ := bindLine_eq_ok.mp h
  rfl

/-- Interactions keep the numbers of their lines. -/
theorem map_lineNumber_bindLines (h : bindLines ps lines = .ok is) :
    is.map Interaction.lineNumber = (Line.interactions lines).map Line.number := by
  refine List.ext_getElem (by simp [length_bindLines h]) fun k hk hk' => ?_
  rw [List.length_map] at hk
  obtain ⟨line, hline, hbound⟩ := (getElem?_bindLines h).mp (List.getElem?_eq_getElem hk)
  rw [List.getElem_map, List.getElem_map, (List.getElem?_eq_some_iff.mp hline).2,
    lineNumber_bindLine hbound]

/-- A line that was read as an interaction carries the parts that it was cut
into. -/
theorem Line.exists_carries {text : String} {number : Int}
    (hkind : (classify text number).isInteraction) :
    ∃ parts : Parts, (classify text number).Carries parts := by
  obtain ⟨-, cut, -, hs, hr, hread⟩ := exists_cut_of_isInteraction hkind
  refine ⟨⟨Text.trimChars cut.sender, Text.trimChars cut.receiver, Text.trimChars cut.message⟩, ?_⟩
  rw [hread]
  exact carries_ofParts rfl rfl rfl hs hr

/-- The message of a line that was read is kept as it is, for only a line with
a message has one. -/
theorem message_bindLine {text : String} {number : Int} {row : Nat} {i : Interaction}
    (hkind : (Line.classify text number).isInteraction)
    (h : bindLine ps (Line.classify text number) row = .ok i) :
    (Line.classify text number).message = i.message := by
  obtain ⟨parts, hcarries⟩ := Line.exists_carries hkind
  obtain ⟨_, _, -, -, rfl⟩ := bindLine_eq_ok.mp h
  dsimp only
  rw [hcarries.kind, hcarries.message]
  split_ifs <;> simp_all

end

/-! ### Built diagrams -/

namespace Diagram

open Line

/-- The diagram accounts for every line of its source. -/
structure Accounts (d : Diagram) (texts : List String) : Prop where
  role : ∀ (j : Nat) (text : String), texts[j]? = some text →
    ∃! role, (classify text j).Plays role
  issues : Numbers texts .issue (d.issues.map Line.number)
  interactions : Numbers texts .interaction (d.interactions.map Interaction.lineNumber)
  /-- An issue shows the line that it is about as it was read. -/
  issue_text : ∀ line ∈ d.issues, ∃ j : Nat, line.number = j ∧ texts[j]? = some line.text
  /-- An interaction has the names and the message of its line. -/
  interaction_text : ∀ i ∈ d.interactions, ∃ (j : Nat) (text : String),
    i.lineNumber = j ∧ texts[j]? = some text ∧
    (classify text j).sender = some i.sender.name ∧
    (classify text j).receiver = some i.receiver.name ∧
    (classify text j).message = i.message

variable {σ : Type} {measurer : Measurer σ} {layout : Layout} {texts : List String}

/-- Every line of a source has its role in the chart that is built of it. -/
theorem accounts_of_build {s : σ} {d : Diagram}
    (h : (build measurer layout (classifyAll texts) s).result = .ok d) : d.Accounts texts := by
  obtain ⟨-, -, hbound, -, -, -, hissues, -⟩ := build_result_ok h
  refine
    { role := fun j text _ => existsUnique_role text j
      issues := ?_
      interactions := ?_
      issue_text := ?_
      interaction_text := ?_ }
  -- issues and interactions keep the numbers of the lines that they were read from
  · rw [hissues]
    exact numbers_filter fun line => Iff.rfl
  · rw [map_lineNumber_bindLines hbound]
    exact numbers_filter fun line => Iff.rfl
  · intro line hline
    rw [hissues, Line.issues, List.mem_filter, mem_classifyAll] at hline
    obtain ⟨⟨j, text, hj, rfl⟩, -⟩ := hline
    exact ⟨j, number_classify text j, by rw [hj, (conforms_classify text j).text_eq]⟩
  · intro i hi
    obtain ⟨k, hk⟩ := List.mem_iff_getElem?.mp hi
    obtain ⟨line, hline, hi⟩ := (getElem?_bindLines hbound).mp hk
    obtain ⟨hmem, hkind⟩ := List.mem_filter.mp (List.mem_of_getElem? hline)
    obtain ⟨j, text, hj, rfl⟩ := mem_classifyAll.mp hmem
    obtain ⟨⟨-, hs⟩, ⟨-, hr⟩, -, -⟩ := endpoints_of_bindLine hi
    have hnumber := (lineNumber_bindLine hi).trans (number_classify text j)
    exact ⟨j, text, hnumber, hj, hs, hr, message_bindLine hkind hi⟩

/-- **No line is lost, and none counts twice**: every diagram that is read
from a source, be it a text or lines, accounts for all of its lines. -/
theorem accounts_of_source {s : σ} {d : Diagram}
    (h : (∃ source, texts = Text.splitLines source ∧
        (ofText measurer layout source s).result = .ok d) ∨
      (ofLines measurer layout texts s).result = .ok d) : d.Accounts texts := by
  rcases h with ⟨source, rfl, h⟩ | h
  · exact accounts_of_build h
  · exact accounts_of_build h

/-- All kinds of lines, two of them issues. -/
theorem accounts_of_source_mixed : ∃ d : Diagram,
    (ofText (.fixedWidth 10 20) {} ":title T\n:colour red\nA -> B: hi\n\n# note\n-> B\nB -> A" ()).result
      = .ok d ∧
    d.issues.map Line.number = [1, 5] ∧ d.interactions.map Interaction.lineNumber = [2, 6] ∧
    d.Accounts (Text.splitLines ":title T\n:colour red\nA -> B: hi\n\n# note\n-> B\nB -> A") := by
  have hnumbers : (ofText (.fixedWidth 10 20) {}
      ":title T\n:colour red\nA -> B: hi\n\n# note\n-> B\nB -> A" ()).result.map
      (fun d => (d.issues.map Line.number, d.interactions.map Interaction.lineNumber))
        = .ok ([1, 5], [2, 6]) := by
    decide +kernel
  obtain ⟨d, hd, hnumbers⟩ := map_eq_ok.mp hnumbers
  obtain ⟨hissues, hinteractions⟩ := Prod.mk.inj hnumbers
  exact ⟨d, hd, hissues, hinteractions, accounts_of_source (.inl ⟨_, rfl, hd⟩)⟩

end Diagram

end SequenceChart
