/-
SequenceChart/Proofs/Source.lean

Sources: a text and the lines that it is cut into.

A text is put together from lines by following each with a terminator, which
is one of ten boundary characters or a carriage return with its line feed
(`EndedLine.text`).  `Separated` says when the lines can be told apart again:
no line has a boundary character in it, only a last line with something in it
may lack its terminator, and a carriage return that ends a line is not
followed by a line feed that would join it.  Cutting undoes putting together
(`linesOf_chars`), and every text is put together so from the lines that it is
cut into (`exists_separated`).  So it makes no difference to a chart whether it
is read from a text or from its lines.

Some readers know the line feed as their only newline.  What they make of a
text has the same lines (`linesOf_unifyNewlinesChars`).
-/
import Mathlib.Data.List.Chain
import SequenceChart.Cli.Program

namespace SequenceChart

namespace Text

/-! ### Lines and their terminators -/

/-- Whether the characters end a line: a boundary character does, and a
carriage return together with its line feed. -/
def IsTerminator (t : List Char) : Prop :=
  t = ['\r', '\n'] ∨ ∃ c, isLineBreak c ∧ t = [c]

instance (t : List Char) : Decidable (IsTerminator t) :=
  decidable_of_iff (t = ['\r', '\n'] ∨ t.any fun c => isLineBreak c && t == [c]) <| by
    refine or_congr Iff.rfl ?_
    rw [List.any_eq_true]
    refine exists_congr fun c => ?_
    rw [Bool.and_eq_true, beq_iff_eq]
    refine and_iff_right_of_imp ?_
    rintro ⟨-, rfl⟩
    exact List.mem_singleton_self c

/-- Whether the characters stay in one line. -/
def Solid (s : List Char) : Prop :=
  ∀ c ∈ s, ¬ isLineBreak c

instance (s : List Char) : Decidable (Solid s) :=
  decidable_of_iff (s.all fun c => ! isLineBreak c) (by simp [Solid])

/-- A line with what follows it. -/
structure EndedLine where
  line : String
  terminator : String
  deriving DecidableEq, Repr

namespace EndedLine

/-- The characters of the lines, each with its terminator. -/
def chars (pieces : List EndedLine) : List Char :=
  pieces.flatMap fun piece => piece.line.toList ++ piece.terminator.toList

/-- The text that the lines make up. -/
def text (pieces : List EndedLine) : String :=
  String.ofList (chars pieces)

/-- Whether the terminators of two lines are read as one: a carriage return,
and a line feed behind it that was to end an empty line. -/
def Fused (piece next : EndedLine) : Prop :=
  piece.terminator = "\r" ∧ next.line = "" ∧ next.terminator = "\n"

instance (piece next : EndedLine) : Decidable (Fused piece next) := by
  unfold Fused
  infer_instance

theorem chars_cons (piece : EndedLine) (pieces : List EndedLine) :
    chars (piece :: pieces) = piece.line.toList ++ (piece.terminator.toList ++ chars pieces) := by
  simp [chars]

end EndedLine

open EndedLine

/-- Whether the lines can be told apart in the text that they make up. -/
structure Separated (pieces : List EndedLine) : Prop where
  solid : ∀ piece ∈ pieces, Solid piece.line.toList
  ended : ∀ piece ∈ pieces.dropLast, IsTerminator piece.terminator.toList
  /-- The last terminator may be left out, but not that of an empty line. -/
  last : ∀ piece ∈ pieces.getLast?, IsTerminator piece.terminator.toList ∨
    (piece.terminator = "" ∧ piece.line ≠ "")
  unfused : pieces.IsChain fun piece next => ¬ Fused piece next

namespace Separated

instance (pieces : List EndedLine) : Decidable (Separated pieces) :=
  decidable_of_iff ((∀ piece ∈ pieces, Solid piece.line.toList) ∧
      (∀ piece ∈ pieces.dropLast, IsTerminator piece.terminator.toList) ∧
      (∀ piece ∈ pieces.getLast?, IsTerminator piece.terminator.toList ∨
        (piece.terminator = "" ∧ piece.line ≠ "")) ∧
      pieces.IsChain fun piece next => ¬ Fused piece next)
    ⟨fun h => ⟨h.1, h.2.1, h.2.2.1, h.2.2.2⟩, fun h => ⟨h.solid, h.ended, h.last, h.unfused⟩⟩

theorem nil : Separated [] := by
  constructor <;> simp

/-- The last line may lack its terminator, but then it is not empty. -/
theorem singleton_iff {piece : EndedLine} : Separated [piece] ↔ Solid piece.line.toList ∧
    (IsTerminator piece.terminator.toList ∨ (piece.terminator = "" ∧ piece.line ≠ "")) := by
  constructor
  · intro h
    exact ⟨h.solid piece (by simp), h.last piece rfl⟩
  · rintro ⟨hsolid, hlast⟩
    constructor <;> simp_all

/-- A text of several lines is its first line, with a terminator that is not fused with
what follows, and the text of the others. -/
theorem cons_cons_iff {piece next : EndedLine} {pieces : List EndedLine} :
    Separated (piece :: next :: pieces) ↔ Solid piece.line.toList ∧
      IsTerminator piece.terminator.toList ∧ ¬ Fused piece next ∧ Separated (next :: pieces) := by
  constructor
  -- what holds of a list and its next element is taken apart field by field
  · intro h
    have hchain := List.isChain_cons_cons.mp h.unfused
    refine ⟨h.solid piece (by simp), h.ended piece (by simp), hchain.1, ?_⟩
    exact
      { solid := fun r hr => h.solid r (List.mem_cons_of_mem _ hr)
        ended := fun r hr => h.ended r <| by
          rw [List.dropLast_cons_cons]
          exact List.mem_cons_of_mem _ hr
        last := by
          have := h.last
          rwa [List.getLast?_cons_cons] at this
        unfused := hchain.2 }
  · rintro ⟨hsolid, hended, hunfused, h⟩
    exact
      { solid := List.forall_mem_cons.mpr ⟨hsolid, h.solid⟩
        ended := by
          rw [List.dropLast_cons_cons]
          exact List.forall_mem_cons.mpr ⟨hended, h.ended⟩
        last := by
          rw [List.getLast?_cons_cons]
          exact h.last
        unfused := List.isChain_cons_cons.mpr ⟨hunfused, h.unfused⟩ }

/-- An empty line has its terminator wherever it stands. -/
theorem ended_head {piece : EndedLine} {pieces : List EndedLine} (h : Separated (piece :: pieces))
    (hline : piece.line = "") : IsTerminator piece.terminator.toList := by
  cases pieces with
  | nil => exact (singleton_iff.mp h).2.resolve_right fun hlast => hlast.2 hline
  | cons next pieces => exact (cons_cons_iff.mp h).2.1

end Separated

/-! ### Cutting -/

/-- A character that is no carriage return is read by itself. -/
theorem linesOf_cons_of_ne {c : Char} (hc : c ≠ '\r') (s : List Char) :
    linesOf (c :: s) = if isLineBreak c then [] :: linesOf s else consToHead c (linesOf s) := by
  rw [linesOf]
  exact fun _ h _ => hc h

/-- Characters of one line are put in front of the first line that follows. -/
theorem linesOf_solid_append {l : List Char} (hl : Solid l) (s : List Char) :
    linesOf (l ++ s) = l.foldr consToHead (linesOf s) := by
  induction l with
  | nil => rfl
  | cons c l ih =>
      have hc : ¬ isLineBreak c := hl c (by simp)
      have hreturn : c ≠ '\r' := by
        rintro rfl
        exact hc (by decide)
      rw [List.cons_append, linesOf_cons_of_ne hreturn, if_neg hc,
        ih fun d hd => hl d (by simp [hd])]
      rfl

/-- Characters are put in front of the first line. -/
theorem foldr_consToHead_cons (l line : List Char) (lines : List (List Char)) :
    l.foldr consToHead (line :: lines) = (l ++ line) :: lines := by
  induction l with
  | nil => rfl
  | cons c l ih =>
      rw [List.foldr_cons, ih]
      rfl

theorem foldr_consToHead_nil {l : List Char} (hne : l ≠ []) : l.foldr consToHead [] = [l] := by
  obtain ⟨c, l, rfl⟩ := List.exists_cons_of_ne_nil hne
  induction l generalizing c with
  | nil => rfl
  | cons d l ih =>
      rw [List.foldr_cons, ih d (by simp)]
      rfl

/-- The last line needs no terminator. -/
theorem linesOf_solid {l : List Char} (hl : Solid l) (hne : l ≠ []) : linesOf l = [l] := by
  rw [← List.append_nil l, linesOf_solid_append hl, linesOf, foldr_consToHead_nil hne,
    List.append_nil]

/-- A terminator ends a line, unless it goes on in the text that follows. -/
theorem linesOf_terminator_append {t s : List Char} (ht : IsTerminator t)
    (h : ¬ (t = ['\r'] ∧ s.head? = some '\n')) : linesOf (t ++ s) = [] :: linesOf s := by
  obtain rfl | ⟨c, hc, rfl⟩ := ht
  · rw [List.cons_append, List.singleton_append, linesOf]
  · rw [List.singleton_append, linesOf, if_pos hc]
    rintro rest rfl rfl
    exact h ⟨rfl, rfl⟩

/-- A text that starts with a line feed starts with an empty line. -/
theorem next_of_head?_chars {piece : EndedLine} {pieces : List EndedLine}
    (h : Separated (piece :: pieces)) (hhead : (chars (piece :: pieces)).head? = some '\n') :
    piece.line = "" ∧ piece.terminator = "\n" := by
  have hsolid : Solid piece.line.toList := h.solid piece (by simp)
  rw [chars_cons] at hhead
  rcases hline : piece.line.toList with - | ⟨c, l⟩
  · have hempty : piece.line = "" := String.toList_eq_nil_iff.mp hline
    obtain hpair | ⟨c, -, hc⟩ := h.ended_head hempty
    · simp [hline, hpair] at hhead
    · obtain rfl : c = '\n' := by simpa [hline, hc] using hhead
      exact ⟨hempty, String.toList_injective hc⟩
  · obtain rfl : c = '\n' := by simpa [hline] using hhead
    exact absurd (by decide) (hsolid '\n' (by simp [hline]))

/-- Cutting a text gives back the lines that it was put together from. -/
theorem linesOf_chars {pieces : List EndedLine} (h : Separated pieces) :
    linesOf (chars pieces) = pieces.map fun piece => piece.line.toList := by
  induction pieces with
  | nil => rfl
  | cons piece pieces ih =>
      cases pieces with
      | nil =>
          -- the last line may have no terminator, but then it has a character
          obtain ⟨hsolid, hended | ⟨hnone, hne⟩⟩ := Separated.singleton_iff.mp h
          · rw [chars_cons, linesOf_solid_append hsolid,
              linesOf_terminator_append hended (by simp [chars]), foldr_consToHead_cons,
              List.append_nil]
            rfl
          · have hne' : piece.line.toList ≠ [] := mt String.toList_eq_nil_iff.mp hne
            have hchars : chars [piece] = piece.line.toList := by simp [chars, hnone]
            rw [hchars, linesOf_solid hsolid hne']
            rfl
      | cons next pieces =>
          obtain ⟨hsolid, hended, hunfused, hrest⟩ := Separated.cons_cons_iff.mp h
          -- a return and a line feed that belong to two lines would be read as one terminator
          have hapart : ¬ (piece.terminator.toList = ['\r'] ∧
              (chars (next :: pieces)).head? = some '\n') := by
            rintro ⟨hreturn, hhead⟩
            have hnext := next_of_head?_chars hrest hhead
            exact hunfused ⟨String.toList_injective hreturn, hnext⟩
          rw [chars_cons, linesOf_solid_append hsolid, linesOf_terminator_append hended hapart,
            foldr_consToHead_cons, List.append_nil, ih hrest]
          rfl

/-! ### Taking a text apart -/

/-- An empty line in front of others. -/
theorem Separated.cons_empty {terminator : String} {pieces : List EndedLine}
    (ht : IsTerminator terminator.toList) (h : Separated pieces)
    (hhead : terminator = "\r" → (chars pieces).head? ≠ some '\n') :
    Separated (⟨"", terminator⟩ :: pieces) := by
  have hsolid : Solid "".toList := fun c hc => by simp at hc
  cases pieces with
  | nil => exact singleton_iff.mpr ⟨hsolid, .inl ht⟩
  | cons next pieces =>
      refine cons_cons_iff.mpr ⟨hsolid, ht, ?_, h⟩
      rintro ⟨hreturn, hline, hterminator⟩
      refine hhead hreturn ?_
      rw [chars_cons, hline, hterminator]
      rfl

/-- One more character in the first line. -/
theorem Separated.cons_char {c : Char} (hc : ¬ isLineBreak c) {piece : EndedLine}
    {pieces : List EndedLine} (h : Separated (piece :: pieces)) :
    Separated ({ piece with line := String.ofList (c :: piece.line.toList) } :: pieces) := by
  have hsolid : Solid piece.line.toList := h.solid piece (by simp)
  have hsolid' : Solid (String.ofList (c :: piece.line.toList)).toList := by
    rw [String.toList_ofList]
    exact List.forall_mem_cons.mpr ⟨hc, hsolid⟩
  -- only the last line needs a character, and this one has one now
  cases pieces with
  | nil =>
      obtain ⟨-, hended | ⟨hnone, -⟩⟩ := singleton_iff.mp h
      · exact singleton_iff.mpr ⟨hsolid', .inl hended⟩
      · exact singleton_iff.mpr ⟨hsolid', .inr ⟨hnone, by simp⟩⟩
  | cons next pieces =>
      obtain ⟨-, hended, hunfused, hrest⟩ := cons_cons_iff.mp h
      exact cons_cons_iff.mpr ⟨hsolid', hended, hunfused, hrest⟩

/-- Every text is put together from the lines that it is cut into. -/
theorem exists_separated (s : List Char) : ∃ pieces, Separated pieces ∧ chars pieces = s ∧
    (pieces.map fun piece => piece.line.toList) = linesOf s := by
  induction s using linesOf.induct with
  | case1 => exact ⟨[], Separated.nil, rfl, rfl⟩
  | case2 rest ih =>
      obtain ⟨pieces, hpieces, hchars, hlines⟩ := ih
      have hpair : "\r\n" ≠ "\r" := by decide
      refine ⟨⟨"", "\r\n"⟩ :: pieces, hpieces.cons_empty (.inl rfl) (absurd · hpair), ?_, ?_⟩
      · rw [chars_cons, hchars]
        rfl
      · rw [List.map_cons, hlines, linesOf]
        rfl
  | case3 c rest hpair hc ih =>
      obtain ⟨pieces, hpieces, hchars, hlines⟩ := ih
      refine ⟨⟨"", String.ofList [c]⟩ :: pieces, hpieces.cons_empty ?_ ?_, ?_, ?_⟩
      · exact .inr ⟨c, hc, String.toList_ofList⟩
      · -- a line feed would have been read together with the carriage return
        intro hreturn hhead
        have hc' : [c] = ['\r'] := by
          rw [← String.toList_ofList (l := [c]), hreturn]
          rfl
        obtain ⟨rest', hrest⟩ := List.head?_eq_some_iff.mp (hchars ▸ hhead)
        exact hpair rest' (List.singleton_inj.mp hc') hrest
      · simp [chars_cons, hchars]
      · rw [List.map_cons, hlines, linesOf, if_pos hc]
        · rfl
        · exact hpair
  | case4 c rest hpair hc ih =>
      obtain ⟨pieces, hpieces, hchars, hlines⟩ := ih
      have hcut : linesOf (c :: rest) = consToHead c (linesOf rest) := by
        rw [linesOf, if_neg hc]
        exact hpair
      rw [hcut, ← hlines, ← hchars]
      cases pieces with
      | nil =>
          have hsolid : Solid [c] := by simpa [Solid] using hc
          refine ⟨[⟨String.ofList [c], ""⟩], Separated.singleton_iff.mpr ⟨?_, ?_⟩, ?_, ?_⟩
          · rwa [String.toList_ofList]
          · exact .inr ⟨rfl, by simp⟩
          · simp [chars]
          · simp [consToHead]
      | cons piece pieces =>
          refine ⟨_, hpieces.cons_char hc, ?_, ?_⟩
          · simp [chars_cons]
          · simp [consToHead]

/-! ### One newline for all -/

/-- Every `\r\n` becomes `\n`. -/
def unifyPairs : List Char → List Char
  | [] => []
  | '\r' :: '\n' :: rest => '\n' :: unifyPairs rest
  | c :: rest => c :: unifyPairs rest

/-- The newlines are unified in two passes, the pairs first. -/
theorem unifyNewlinesChars_eq_map (s : List Char) :
    unifyNewlinesChars s = (unifyPairs s).map fun c => if c = '\r' then '\n' else c := by
  induction s using unifyPairs.induct with
  | case1 => rfl
  | case2 rest ih => simp [unifyNewlinesChars, unifyPairs, ih]
  | case3 c rest hpair ih =>
      rw [unifyNewlinesChars, unifyPairs, List.map_cons, ih]
      · exact hpair
      · exact hpair

/-- Who reads every newline as a line feed finds the same lines. -/
theorem linesOf_unifyNewlinesChars (s : List Char) :
    linesOf (unifyNewlinesChars s) = linesOf s := by
  induction s using unifyNewlinesChars.induct with
  | case1 => rfl
  | case2 rest ih =>
      rw [unifyNewlinesChars, linesOf_cons_of_ne (by decide), if_pos (by decide), ih, linesOf]
  | case3 c rest hpair ih =>
      rw [unifyNewlinesChars]
      -- a return that no line feed follows ends a line by itself
      · by_cases hc : c = '\r'
        · subst hc
          rw [if_pos rfl, linesOf_cons_of_ne (by decide), if_pos (by decide), ih, linesOf,
            if_pos (by decide)]
          exact hpair
        · rw [if_neg hc, linesOf_cons_of_ne hc, linesOf_cons_of_ne hc, ih]
      · exact hpair

/-! ### Texts and their lines -/

/-- Lines that are kept apart are found again. -/
theorem splitLines_text {pieces : List EndedLine} (h : Separated pieces) :
    splitLines (EndedLine.text pieces) = pieces.map EndedLine.line := by
  rw [splitLines, EndedLine.text, String.toList_ofList, linesOf_chars h, List.map_map]
  exact List.map_congr_left fun piece _ => String.ofList_toList

/-- To unify the newlines changes no line. -/
theorem splitLines_unifyNewlines (source : String) :
    splitLines (unifyNewlines source) = splitLines source := by
  rw [splitLines, unifyNewlines, String.toList_ofList, linesOf_unifyNewlinesChars, splitLines]

/-- What a text is put together from are the lines that it is cut into. -/
theorem exists_separated_text (source : String) : ∃ pieces, Separated pieces ∧
    EndedLine.text pieces = source ∧ pieces.map EndedLine.line = splitLines source := by
  obtain ⟨pieces, hpieces, hchars, -⟩ := exists_separated source.toList
  have htext : EndedLine.text pieces = source := by
    rw [EndedLine.text, hchars, String.ofList_toList]
  exact ⟨pieces, hpieces, htext, by rw [← splitLines_text hpieces, htext]⟩

/-- No line has a line break in it. -/
theorem solid_of_mem_splitLines {source line : String} (h : line ∈ splitLines source) :
    Solid line.toList := by
  obtain ⟨pieces, hpieces, -, hlines⟩ := exists_separated_text source
  rw [← hlines] at h
  obtain ⟨piece, hpiece, rfl⟩ := List.mem_map.mp h
  exact hpieces.solid piece hpiece

end Text

/-! ### Charts -/

open Text

/-- **A text and its lines are one source.**  Whatever terminators the lines of
a source are given, if they can be told apart in the text, the text is cut into
them again, and the chart of the text is that of the lines, or the same fault.
Conversely every text is such lines put together.  To unify its newlines, as is
done to the input of a command, changes none of its lines. -/
theorem lines_of_source {σ : Type} (measurer : Measurer σ) (layout : Layout) :
    (∀ pieces, Separated pieces →
      splitLines (EndedLine.text pieces) = pieces.map EndedLine.line ∧
      Diagram.ofText measurer layout (EndedLine.text pieces) =
        Diagram.ofLines measurer layout (pieces.map EndedLine.line)) ∧
    (∀ source, (∀ line ∈ splitLines source, Solid line.toList) ∧
      ∃ pieces, Separated pieces ∧ EndedLine.text pieces = source ∧
        pieces.map EndedLine.line = splitLines source) ∧
    (∀ source, splitLines (String.ofList
        ((unifyPairs source.toList).map fun c => if c = '\r' then '\n' else c)) =
      splitLines source) ∧
    ∀ content, (Cli.decode content).toOption.map splitLines =
      (String.fromUTF8? content).map splitLines := by
  refine ⟨fun pieces hpieces => ⟨splitLines_text hpieces, ?_⟩, fun source => ?_,
    fun source => ?_, ?_⟩
  · rw [Diagram.ofText, splitLines_text hpieces]
  · exact ⟨fun line => solid_of_mem_splitLines, exists_separated_text source⟩
  · rw [← unifyNewlinesChars_eq_map]
    exact splitLines_unifyNewlines source
  · intro content
    unfold Cli.decode
    split
    · next hraw =>
        rw [hraw]
        rfl
    · next raw hraw =>
        rw [hraw]
        exact congrArg some (splitLines_unifyNewlines raw)

/-- Five terminators, two carriage returns next to empty lines, and a last line
without any. -/
theorem lines_of_source_mixed :
    let pieces : List EndedLine := [⟨"A -> B: x", "\r\n"⟩, ⟨"", "\r"⟩, ⟨"", "\r\n"⟩,
      ⟨"# note", "\u2028"⟩, ⟨"B -> A", "\x0b"⟩, ⟨"", "\n"⟩, ⟨"end", ""⟩]
    let source := "A -> B: x\r\n\r\r\n# note\u2028B -> A\x0b\nend"
    let texts := ["A -> B: x", "", "", "# note", "B -> A", "", "end"]
    Separated pieces ∧ EndedLine.text pieces = source ∧ splitLines source = texts ∧
      Diagram.ofText (.estimated : Measurer Unit) {} source =
        Diagram.ofLines .estimated {} texts := by
  intro pieces source texts
  have hseparated : Separated pieces := by decide +kernel
  have htext : EndedLine.text pieces = source := by decide +kernel
  obtain ⟨hcut, hchart⟩ := (lines_of_source (.estimated : Measurer Unit) {}).1 pieces hseparated
  rw [htext] at hcut hchart
  exact ⟨hseparated, htext, hcut, hchart⟩

end SequenceChart
