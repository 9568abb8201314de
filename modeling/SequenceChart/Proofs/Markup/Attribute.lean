/-
SequenceChart/Proofs/Markup/Attribute.lean

Reading the attributes of tags.

The quotes of a tag cut it into the values of its attributes and what stands
between them, so a value is found by the name in front of it
(`Tag.attribute?`).  A tag that was printed from attributes with legible names
and values says exactly these (`Tag.Says`).

`Reads tokens P` says what a reader makes of some tokens, whatever text comes
after them: they are cut into tags of their own, and `P` holds of these.  A text
that ends with a closing bracket is cut off from what comes after it even if
it is a jumble itself (`Reads.closed`), so the tags at the end of a drawing can
be read whatever its font and its colours are.
-/
import SequenceChart.Proofs.Markup.Erasure
import SequenceChart.Proofs.Run

namespace SequenceChart.Markup

/-! ### The reader -/

/-- The quoted texts among the pieces of a tag, each with what stands between it
and the one before. -/
def quotedIn : List (List Char) → List (List Char × List Char)
  | between :: quoted :: pieces => (between, quoted) :: quotedIn pieces
  | _ => []

/-- The value of an attribute: the first quoted text with a blank, the name and an
equals sign in front of it. -/
def Tag.attribute? (tag : Tag) (name : String) : Option String :=
  ((quotedIn (tag.body.splitOn '"')).find? fun piece =>
    (' ' :: name.toList ++ ['=']).isSuffixOf piece.1).map fun piece => String.ofList piece.2

example : Tag.attribute? ⟨"line x1=\"4.5\" x2=\"7\" /".toList, []⟩ "x2" = some "7" := by
  decide

/-! ### Attributes that can be read -/

/-- Whether name and value can be told from what stands around them. -/
structure Legible (a : Attribute) : Prop where
  name : IsName a.1
  unquotedName : '"' ∉ a.1.toList
  value : Plain a.2.toList
  unquoted : '"' ∉ a.2.toList

theorem plainAttributes_of_legible {attributes : List Attribute}
    (h : ∀ a ∈ attributes, Legible a) : PlainAttributes attributes :=
  fun a ha => ⟨(h a ha).name.plain, (h a ha).value⟩

/-- A name is found where it stands between a blank and an equals sign, and no
other name is. -/
theorem isSuffixOf_name_iff {before name : List Char} (hbefore : ' ' ∉ before)
    (hname : ' ' ∉ name) (key : List Char) :
    (' ' :: key ++ ['=']).isSuffixOf (before ++ ' ' :: name ++ ['=']) ↔ key = name := by
  rw [List.isSuffixOf_iff_suffix, List.suffix_append_self_iff]
  constructor
  · rintro ⟨front, h⟩
    -- the two blanks are one, for there is none in front of it and none behind it
    rcases List.append_eq_append_iff.mp h with ⟨between, hfront, hkey⟩ | ⟨between, hfront, hkey⟩
    · cases between with
      | nil => exact (List.cons.inj hkey).2
      | cons c between =>
          obtain ⟨rfl, -⟩ := List.cons.inj hkey
          exact absurd (by simp [hfront]) hbefore
    · cases between with
      | nil => exact (List.cons.inj hkey).2.symm
      | cons c between =>
          obtain ⟨-, rfl⟩ := List.cons.inj hkey
          exact absurd (by simp) hname
  · rintro rfl
    exact List.suffix_append _ _

/-- Between two quotation marks stands a value, and before them its name. -/
theorem quotedIn_splitOn {between quoted : List Char} (hbetween : '"' ∉ between)
    (hquoted : '"' ∉ quoted) (rest : List Char) :
    quotedIn ((between ++ '"' :: (quoted ++ '"' :: rest)).splitOn '"') =
      (between, quoted) :: quotedIn (rest.splitOn '"') := by
  rw [List.splitOn_append_cons_self_of_not_mem hbetween,
    List.splitOn_append_cons_self_of_not_mem hquoted, quotedIn]

/-- A tag is read as the attributes it was printed from, whatever stands between
the first of them and the name. -/
theorem attribute?_of_body {before tail : List Char} {attributes : List Attribute}
    (hbefore : ' ' ∉ before) (hunquoted : '"' ∉ before) (htail : '"' ∉ tail)
    (h : ∀ a ∈ attributes, Legible a) (key : String) (data : List Char) :
    Tag.attribute? ⟨before ++ (attributes.flatMap Token.attributeChars ++ tail), data⟩ key =
      attributes.lookup key := by
  induction attributes generalizing before with
  | nil =>
      have hnone : '"' ∉ before ++ ([] ++ tail) := by simp [hunquoted, htail]
      rw [Tag.attribute?, List.flatMap_nil, List.splitOn_eq_singleton hnone]
      rfl
  | cons a attributes ih =>
      obtain ⟨name, value⟩ := a
      obtain ⟨ha, hrest⟩ := List.forall_mem_cons.mp h
      -- the first attribute has the first two quotation marks of the body
      have hbody : before ++ (((name, value) :: attributes).flatMap Token.attributeChars ++ tail) =
          (before ++ ' ' :: name.toList ++ ['=']) ++ '"' :: (value.toList ++ '"' ::
            ([] ++ (attributes.flatMap Token.attributeChars ++ tail))) := by
        simp [Token.attributeChars]
      have hname : '"' ∉ before ++ ' ' :: name.toList ++ ['='] := by
        simp [hunquoted, ha.unquotedName]
      have hfound := isSuffixOf_name_iff hbefore ha.name.solid key.toList
      have ih := @ih [] (by simp) (by simp) hrest
      rw [Tag.attribute?] at ih ⊢
      rw [hbody, quotedIn_splitOn hname ha.unquoted, List.find?_cons]
      -- the name of another attribute is no suffix of what stands before the value
      by_cases hkey : key = name
      · rw [hfound.mpr (congrArg String.toList hkey), hkey, List.lookup_cons_self, Option.map_some,
          String.ofList_toList]
      · have hother : (' ' :: key.toList ++ ['=']).isSuffixOf
            (before ++ ' ' :: name.toList ++ ['=']) = false :=
          Bool.eq_false_iff.mpr fun hsuffix => hkey (String.toList_injective (hfound.mp hsuffix))
        rw [hother, List.lookup_cons, beq_eq_false_iff_ne.mpr hkey]
        exact ih

/-! ### What tags say -/

/-- A tag has a name and attributes. -/
structure Tag.Says (tag : Tag) (name : String) (attributes : List Attribute) : Prop where
  name : tag.name = name
  value : ∀ key, tag.attribute? key = attributes.lookup key

section

variable {name : String} {attributes : List Attribute}

/-- A start tag says what it was printed from. -/
theorem says_startBody (hname : IsName name) (hunquoted : '"' ∉ name.toList)
    (h : ∀ a ∈ attributes, Legible a) (data : List Char) :
    Tag.Says ⟨startBody name attributes, data⟩ name attributes where
  name := name_startBody hname attributes data
  value := by
    intro key
    rw [startBody, ← List.append_nil (attributes.flatMap Token.attributeChars)]
    exact attribute?_of_body hname.solid hunquoted (by simp) h key data

theorem says_voidBody (hname : IsName name) (hunquoted : '"' ∉ name.toList)
    (h : ∀ a ∈ attributes, Legible a) (data : List Char) :
    Tag.Says ⟨voidBody name attributes, data⟩ name attributes where
  name := name_voidBody hname attributes data
  value := fun key => attribute?_of_body hname.solid hunquoted (by decide) h key data

end

/-! ### What tokens are read as -/

/-- Whatever follows, the tokens are cut into tags of their own, of which `P`
holds. -/
def Reads (tokens : List Token) (P : List Tag → Prop) : Prop :=
  ∀ s data tags, cutData s = some (data, tags) →
    ∃ data' own, cutData (tokens.flatMap Token.chars ++ s) = some (data', own ++ tags) ∧ P own

/-- Behind a closing bracket the reader is outside of any tag, wherever it
started from. -/
theorem exists_cut_closed (text : List Char) {s data : List Char} {tags : List Tag}
    (hs : cutData s = some (data, tags)) :
    (∃ data' own, cutData (text ++ '>' :: s) = some (data', own ++ tags)) ∧
      ∃ tag own, cutTag (text ++ '>' :: s) = some (tag, own ++ tags) := by
  induction text with
  | nil =>
      constructor
      · exact ⟨'>' :: data, [], by rw [List.nil_append, cutData, if_neg (by decide), hs]; rfl⟩
      · exact ⟨⟨[], data⟩, [], by rw [List.nil_append, cutTag, if_pos rfl, hs]; rfl⟩
  | cons c text ih =>
      obtain ⟨⟨data', own, hdata⟩, tag, own', htag⟩ := ih
      -- a bracket opens a tag, which the induction closes
      constructor
      · rw [List.cons_append, cutData]
        split
        · exact ⟨[], tag :: own', by rw [htag]; rfl⟩
        · exact ⟨c :: data', own, by rw [hdata]; rfl⟩
      · rw [List.cons_append, cutTag]
        split
        · exact ⟨⟨[], data'⟩, own, by rw [hdata]; rfl⟩
        · exact ⟨⟨c :: tag.body, tag.data⟩, own', by rw [htag]; rfl⟩

namespace Reads

variable {tokens tokens' : List Token} {P Q : List Tag → Prop}

theorem nil : Reads [] (· = []) :=
  fun _ data _ hs => ⟨data, [], hs, rfl⟩

theorem mono (h : Reads tokens P) (hPQ : ∀ own, P own → Q own) : Reads tokens Q := by
  intro s data tags hs
  obtain ⟨data', own, hcut, hown⟩ := h s data tags hs
  exact ⟨data', own, hcut, hPQ own hown⟩

theorem append (h : Reads tokens P) (h' : Reads tokens' Q) : Reads (tokens ++ tokens')
    fun own => ∃ first second, own = first ++ second ∧ P first ∧ Q second := by
  intro s data tags hs
  -- what the first tokens are followed by is the second ones and the rest
  obtain ⟨data₂, second, hcut₂, hsecond⟩ := h' s data tags hs
  obtain ⟨data₁, first, hcut₁, hfirst⟩ := h _ data₂ _ hcut₂
  refine ⟨data₁, first ++ second, ?_, first, second, rfl, hfirst, hsecond⟩
  rw [List.flatMap_append, List.append_assoc, hcut₁, List.append_assoc]

theorem closed (h : Closed tokens) : Reads tokens fun _ => True := by
  obtain ⟨text, htext⟩ := h
  intro s data tags hs
  obtain ⟨⟨data', own, hcut⟩, -⟩ := exists_cut_closed text hs
  exact ⟨data', own, by rw [htext, List.append_assoc]; exact hcut, trivial⟩

theorem data_cons {text : String} (htext : '<' ∉ text.toList) (h : Reads tokens P) :
    Reads (.data text :: tokens) P := by
  intro s data tags hs
  obtain ⟨data', own, hcut, hown⟩ := h s data tags hs
  refine ⟨text.toList ++ data', own, ?_, hown⟩
  rw [List.flatMap_cons, List.append_assoc, Token.chars, cutData_append htext, hcut]
  rfl

/-- A single tag is read as it stands between its brackets. -/
theorem of_tag {token : Token} {body : List Char} (htoken : token.chars = '<' :: (body ++ ['>']))
    (hbody : '>' ∉ body) (hP : ∀ data, P [⟨body, data⟩]) : Reads [token] P := by
  intro s data tags hs
  refine ⟨[], [⟨body, data⟩], ?_, hP data⟩
  have hchars : [token].flatMap Token.chars ++ s = '<' :: (body ++ '>' :: s) := by
    simp [htoken]
  rw [hchars, cutData_tag hbody, hs]
  rfl

theorem start {name : String} {attributes : List Attribute} (hname : IsName name)
    (h : PlainAttributes attributes) :
    Reads [.start name attributes] fun own => own.map Tag.name = [name] :=
  of_tag rfl (not_mem_gt_startBody hname h)
    fun data => congrArg (fun name => [name]) (name_startBody hname attributes data)

theorem finish {name : String} (hname : IsName name) :
    Reads [.finish name] fun own => own.map Tag.name = ["/" ++ name] :=
  of_tag rfl (not_mem_gt_finishBody hname)
    fun data => congrArg (fun name => [name]) (name_finishBody hname data)

theorem void {name : String} {attributes : List Attribute} (hname : IsName name)
    (hunquoted : '"' ∉ name.toList) (h : ∀ a ∈ attributes, Legible a) :
    Reads [.void name attributes] fun own => ∃ tag, own = [tag] ∧ tag.Says name attributes :=
  of_tag (chars_void name attributes)
    (not_mem_gt_voidBody hname (plainAttributes_of_legible h))
    fun data => ⟨_, rfl, says_voidBody hname hunquoted h data⟩

/-- A labelled element is read as two tags with its label between them. -/
theorem labelled {attributes : List Attribute} (h : ∀ a ∈ attributes, Legible a) (text : String) :
    Reads (Markup.labelled "text" attributes text) fun own => ∃ tag ending, own = [tag, ending] ∧
      tag.Says "text" attributes ∧ unescapeChars tag.data = text.toList ∧ ending.name = "/text" := by
  intro s data tags hs
  refine ⟨[], [⟨startBody "text" attributes, escapeChars text.toList⟩, ⟨"/text".toList, data⟩],
    cutData_labelled (plainAttributes_of_legible h) text hs, _, _, rfl,
    says_startBody (by decide) (by decide) h _, ?_, ?_⟩
  · rw [unescapeChars_escapeChars]
  · show String.ofList ("/text".toList.takeWhile (· ≠ ' ')) = "/text"
    decide

/-- Pieces on lines of their own, behind another one: the tags of each of them
are read on their own. -/
theorem lines {α : Type} {P : α → List Tag → Prop} {xs : List α} {pieces : List (List Token)}
    (h : List.Forall₂ (fun x piece => Reads piece (P x)) xs pieces) :
    Reads (pieces.flatMap (.data "\n" :: ·))
      fun own => ∃ groups, own = groups.flatten ∧ List.Forall₂ P xs groups := by
  induction h with
  | nil =>
      refine nil.mono ?_
      rintro own rfl
      exact ⟨[], rfl, .nil⟩
  | cons hpiece _ ih =>
      refine ((data_cons (by decide) hpiece).append ih).mono ?_
      rintro own ⟨first, second, rfl, hfirst, groups, rfl, hgroups⟩
      exact ⟨first :: groups, rfl, .cons hfirst hgroups⟩

/-- Drawing every element of a list. -/
theorem mapM {α : Type} {draw : α → Calc (List Token)} {P : α → List Tag → Prop}
    (hdraw : ∀ x tokens, draw x = .ok tokens → Reads tokens (P x)) {xs : List α}
    {pieces : List (List Token)} (h : xs.mapM draw = .ok pieces) :
    Reads (pieces.flatMap (.data "\n" :: ·))
      fun own => ∃ groups, own = groups.flatten ∧ List.Forall₂ P xs groups :=
  lines ((mapM_eq_ok.mp h).imp hdraw)

/-- Pieces that each end with a tag can be anything. -/
theorem closedLines {pieces : List (List Token)} (h : ∀ piece ∈ pieces, Closed piece) :
    Reads (pieces.flatMap (.data "\n" :: ·)) fun _ => True := by
  have hpieces : List.Forall₂ (fun _ piece => Reads piece fun _ => True) pieces pieces :=
    List.forall₂_same.mpr fun piece hpiece => closed (h piece hpiece)
  exact (lines hpieces).mono fun _ _ => trivial

/-- What a reader makes of the text of the tokens. -/
theorem cut?_print (h : Reads tokens P) : ∃ tags, cut? (print tokens) = some tags ∧ P tags := by
  obtain ⟨data, tags, hcut, htags⟩ := h [] [] [] rfl
  refine ⟨tags, ?_, htags⟩
  rw [List.append_nil, List.append_nil] at hcut
  rw [cut?, print, String.toList_ofList, hcut]
  rfl

end Reads

/-- The first of some pieces stands at the front, and every other one behind a
line break. -/
theorem onLines_cons (piece : List Token) (pieces : List (List Token)) :
    onLines (piece :: pieces) = piece ++ pieces.flatMap (.data "\n" :: ·) := by
  induction pieces generalizing piece with
  | nil => rw [onLines, List.intercalate_singleton, List.flatMap_nil, List.append_nil]
  | cons next pieces ih =>
      rw [onLines, List.intercalate_cons_cons, ← onLines, ih next]
      simp

end SequenceChart.Markup
