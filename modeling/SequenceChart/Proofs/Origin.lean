/-
SequenceChart/Proofs/Origin.lean

Where the characters of a label come from.

A line is read by cutting it: at its outer blanks, at an arrow and a colon, or
behind a keyword.  What is read from it is a piece of it (`Line.Within`), so the
names, the messages and the fields of the header have no characters but those of
the source, and neither have the labels of a drawing, except for what stands
between author and date (`Diagram.subset_of_mem_labels`).
-/
import SequenceChart.Proofs.Label
import SequenceChart.Proofs.Markup.Character
import SequenceChart.Proofs.Outline
import SequenceChart.Proofs.Role
import SequenceChart.Proofs.Source
import SequenceChart.Proofs.Theme

namespace SequenceChart

open Markup

/-! ### Lines -/

namespace Line

variable {text : String} {number : Int} {t sender receiver message : List Char}

/-- The parts of an interaction are cut out of its text. -/
theorem CutsInto.subset (h : CutsInto t sender receiver message) :
    sender ⊆ t ∧ receiver ⊆ t ∧ message ⊆ t := by
  obtain ⟨i, r, -, hr, rfl, rfl, rfl⟩ := h
  -- what follows the arrow is a part of the text
  have hrest : r ⊆ t := by
    obtain ⟨a, b, hdrop, -⟩ := hr.arrow
    intro c hc
    refine List.mem_of_mem_drop (i := i) ?_
    rw [hdrop]
    exact List.mem_append_right _ (List.mem_append_right _ hc)
  refine ⟨fun c hc => ?_, fun c hc => hrest ?_, fun c hc => hrest ?_⟩
  · exact List.mem_of_mem_take ((Text.trimChars_isInfix _).subset hc)
  · exact (List.takeWhile_prefix _).subset ((Text.trimChars_isInfix _).subset hc)
  · exact (List.dropWhile_suffix _).subset
      (List.mem_of_mem_tail ((Text.trimChars_isInfix _).subset hc))

/-- Whether all that is read from the line has its characters in `s`. -/
structure Within (line : Line) (s : List Char) : Prop where
  sender : ∀ name ∈ line.sender, name.toList ⊆ s
  receiver : ∀ name ∈ line.receiver, name.toList ⊆ s
  message : ∀ message ∈ line.message, message.toList ⊆ s
  value : ∀ d ∈ line.directive, d.value.toList ⊆ s

theorem Within.mono {line : Line} {s t : List Char} (h : line.Within s) (hst : s ⊆ t) :
    line.Within t where
  sender := fun name hname => List.Subset.trans (h.sender name hname) hst
  receiver := fun name hname => List.Subset.trans (h.receiver name hname) hst
  message := fun message hmessage => List.Subset.trans (h.message message hmessage) hst
  value := fun d hd => List.Subset.trans (h.value d hd) hst

/-- A line has no characters but those of its text. -/
theorem within_classify (text : String) (number : Int) :
    (classify text number).Within text.toList := by
  have hconforms := conforms_classify text number
  refine Within.mono ?_ (Text.trimChars_isInfix text.toList).subset
  -- an interaction is cut into its parts, a directive has a value, and no other
  -- line says anything
  have hvalue : ∀ d ∈ (classify text number).directive,
      d.value.toList ⊆ Text.trimChars text.toList := by
    intro d hd
    by_cases hkind : (classify text number).kind = .directive
    · obtain ⟨d', hd', hread⟩ := hconforms.reads_directive hkind
      obtain rfl := Option.some.inj (hd'.symm.trans hd)
      rw [hread.value]
      exact fun c hc => List.mem_of_mem_drop ((Text.trimChars_isInfix _).subset hc)
    · rw [hconforms.no_directive hkind] at hd
      cases hd
  by_cases hkind : (classify text number).isInteraction
  · obtain ⟨sender, receiver, message, hcut, hs, hr, hm⟩ := hconforms.reads_interaction hkind
    obtain ⟨hsender, hreceiver, hmessage⟩ := hcut.subset
    constructor
    · simp [hs, hsender]
    · simp [hr, hreceiver]
    · rw [hm]
      split <;> simp [hmessage]
    · exact hvalue
  · obtain ⟨hs, hr, hm⟩ := hconforms.no_interaction hkind
    constructor
    · simp [hs]
    · simp [hr]
    · simp [hm]
    · exact hvalue

/-- A line of a source has no characters but those of the source. -/
theorem within_readAll {source : String} {line : Line} (h : line ∈ readAll source) :
    line.Within source.toList := by
  obtain ⟨j, text, htext, rfl⟩ := mem_classifyAll.mp h
  refine (within_classify text j).mono ?_
  -- the text of a line stands in the source, in front of its terminator
  obtain ⟨pieces, -, hsource, hlines⟩ := Text.exists_separated_text source
  obtain ⟨piece, hpiece, rfl⟩ := List.mem_map.mp (hlines ▸ List.mem_of_getElem? htext)
  rw [← hsource, Text.EndedLine.text, String.toList_ofList]
  intro c hc
  exact List.mem_flatMap.mpr ⟨piece, hpiece, List.mem_append_left _ hc⟩

end Line

/-! ### The header -/

/-- Whether the fields of the header that are drawn have their characters in `s`. -/
structure Header.Within (header : Header) (s : List Char) : Prop where
  title : ∀ text ∈ header.title, text.toList ⊆ s
  author : ∀ text ∈ header.author, text.toList ⊆ s
  date : ∀ text ∈ header.date, text.toList ⊆ s

theorem nonempty?_eq_some {s t : String} (h : nonempty? s = some t) : t = s := by
  unfold nonempty? at h
  split at h
  · cases h
  · exact (Option.some.inj h).symm

namespace Header

variable {header : Header} {s : List Char}

theorem Within.apply (h : header.Within s) {d : Directive} (hd : d.value.toList ⊆ s) :
    (header.apply d).Within s := by
  have hvalue : ∀ text ∈ nonempty? d.value, text.toList ⊆ s := by
    intro text htext
    rw [nonempty?_eq_some htext]
    exact hd
  unfold Header.apply
  split
  · exact ⟨hvalue, h.author, h.date⟩
  · exact ⟨h.title, hvalue, h.date⟩
  · exact ⟨h.title, h.author, hvalue⟩
  · exact ⟨h.title, h.author, h.date⟩
  · exact h

/-- The fields of a header are taken from the lines. -/
theorem within_collect {lines : List Line} (h : ∀ line ∈ lines, line.Within s) :
    (collect lines).Within s := by
  have hdirectives : ∀ d ∈ lines.filterMap directiveOf?, d.value.toList ⊆ s := by
    intro d hd
    obtain ⟨line, hline, hd⟩ := List.mem_filterMap.mp hd
    exact (h line hline).value d (directiveOf?_eq_some.mp hd).2
  have hempty : ({} : Header).Within s := by
    constructor <;> simp
  unfold collect
  -- what one directive keeps, all of them keep
  generalize lines.filterMap directiveOf? = ds at hdirectives
  generalize ({} : Header) = header at hempty
  induction ds generalizing header with
  | nil => exact hempty
  | cons d ds ih =>
      exact ih (fun d' hd' => hdirectives d' (by simp [hd'])) _
        (hempty.apply (hdirectives d (by simp)))

/-- The lines of the header band have the characters of its fields, and those
that stand between author and date. -/
theorem Within.headerLines (h : header.Within s) :
    ∀ line ∈ Drawing.headerLines header, line.text.toList ⊆ s ++ " · ".toList := by
  have hfield : ∀ field ∈ [header.author, header.date], ∀ text ∈ field.bind nonempty?,
      text.toList ⊆ s := by
    intro field hfield text htext
    obtain ⟨text', htext', hsome⟩ := Option.bind_eq_some_iff.mp htext
    rw [nonempty?_eq_some hsome]
    rcases List.mem_pair.mp hfield with rfl | rfl
    · exact h.author text' htext'
    · exact h.date text' htext'
  intro line hline
  -- the title is one field, the byline is put together from two
  rcases List.mem_append.mp hline with hline | hline
  · obtain ⟨text, htext, rfl⟩ := List.mem_map.mp hline
    obtain ⟨text', htext', hsome⟩ := Option.bind_eq_some_iff.mp (Option.mem_toList.mp htext)
    rw [nonempty?_eq_some hsome]
    exact List.Subset.trans (h.title text' htext') (List.subset_append_left _ _)
  · obtain ⟨text, htext, rfl⟩ := List.mem_map.mp hline
    rw [nonempty?_eq_some (Option.mem_toList.mp htext)]
    intro c hc
    rcases mem_intercalate hc with hc | ⟨piece, hpiece, hc⟩
    · exact List.mem_append_right _ hc
    · obtain ⟨field, hmem, hpiece⟩ := List.mem_filterMap.mp hpiece
      exact List.mem_append_left _ (hfield field hmem piece hpiece hc)

end Header

/-! ### The labels -/

/-- The message of an interaction is that of an interaction line. -/
theorem exists_message_of_mem {ps : List Participant} {lines : List Line}
    {interactions : List Interaction} (h : bindLines ps lines = .ok interactions)
    {i : Interaction} (hi : i ∈ interactions) {text : String} (htext : i.message = some text) :
    ∃ line ∈ Line.interactions lines, line.message = some text := by
  obtain ⟨k, hk⟩ := List.mem_iff_getElem?.mp hi
  obtain ⟨line, hline, hbound⟩ := (getElem?_bindLines h).mp hk
  obtain ⟨_, _, -, -, rfl⟩ := bindLine_eq_ok.mp hbound
  refine ⟨line, List.mem_of_getElem? hline, ?_⟩
  dsimp only at htext
  split at htext
  · exact htext
  · cases htext

namespace Diagram

variable {σ : Type} {measurer : Measurer σ} {layout : Layout} {s : σ} {d : Diagram}

/-- **A label has the characters of the source**, but for those that stand
between author and date. -/
theorem subset_of_mem_labels {source : String}
    (h : (ofText measurer layout source s).result = .ok d) :
    ∀ label ∈ d.labels, label.toList ⊆ source.toList ++ " · ".toList := by
  change (build measurer layout (Line.readAll source) s).result = .ok d at h
  obtain ⟨_, hps, hbound, -, -, hheader, -, -⟩ := build_result_ok h
  have hwithin : ∀ line ∈ Line.readAll source, line.Within source.toList :=
    fun line => Line.within_readAll
  have hinteraction : ∀ line ∈ Line.interactions (Line.readAll source),
      line.Within source.toList := fun line hline => hwithin line (List.mem_filter.mp hline).1
  intro label hlabel
  -- a label is a line of the header, a message or a name
  rcases List.mem_append.mp hlabel with hlabel | hname
  · rcases List.mem_append.mp hlabel with hheaderLine | hmessage
    · obtain ⟨line, hline, rfl⟩ := List.mem_map.mp hheaderLine
      exact (hheader ▸ Header.within_collect hwithin).headerLines line hline
    · obtain ⟨i, hi, hlabel⟩ := List.mem_filterMap.mp hmessage
      obtain ⟨text, htext, hsome⟩ := Option.bind_eq_some_iff.mp hlabel
      obtain ⟨line, hline, hmessage⟩ := exists_message_of_mem hbound hi htext
      rw [nonempty?_eq_some hsome]
      exact List.Subset.trans ((hinteraction line hline).message text hmessage)
        (List.subset_append_left _ _)
  · obtain ⟨p, hp, rfl⟩ := List.mem_map.mp hname
    have hmention : p.name ∈ Line.firstMentions (Line.readAll source) := by
      rw [← map_name_of_resolveParticipants hps]
      exact List.mem_map_of_mem hp
    obtain ⟨line, hline, hname⟩ := Line.mem_firstMentions.mp hmention
    refine List.Subset.trans ?_ (List.subset_append_left _ _)
    rcases hname with hname | hname
    · exact (hinteraction line hline).sender p.name hname
    · exact (hinteraction line hline).receiver p.name hname

end Diagram

end SequenceChart
