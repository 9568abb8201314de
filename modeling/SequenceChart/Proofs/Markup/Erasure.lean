/-
SequenceChart/Proofs/Markup/Erasure.lean

Erasing the labels of strokes.

The label of a message stands directly behind the stroke of its arrow, a `line`
or a `polyline`.  A reader who only cuts a text at its brackets finds these
labels without knowing what they say, and can write the text again without
them (`eraseLabels?`).

`Twins tokens tokens'` says that two lists of tokens come out alike when they
are erased, whatever follows them, as long as that comes out alike.  Two
labelled strokes are twins whatever their labels say (`Twins.label`), and any
text that ends a tag is its own twin, even one whose tags are a jumble
(`Twins.closed`): the reader is outside of a tag behind it.
-/
import SequenceChart.Proofs.Markup.Cut

namespace SequenceChart.Markup

/-! ### The eraser -/

/-- Whether a tag draws a stroke. -/
def Tag.isStroke (tag : Tag) : Bool :=
  tag.name = "line" || tag.name = "polyline"

/-- Drop the character data of the `text` tags that stand directly behind a
stroke; `behind` tells whether the first tag does. -/
def bareTags (behind : Bool) : List Tag → List Tag
  | [] => []
  | tag :: tags =>
    (if behind && tag.name = "text" then { tag with data := [] } else tag) ::
      bareTags tag.isStroke tags

/-- A tag with the text behind it, as it stood in the drawing. -/
def Tag.chars (tag : Tag) : List Char :=
  '<' :: tag.body ++ '>' :: tag.data

/-- A text without the labels of its strokes. -/
def eraseLabels? (svg : String) : Option String :=
  (cutData svg.toList).map fun (data, tags) =>
    String.ofList (data ++ (bareTags false tags).flatMap Tag.chars)

/-- Both texts can be erased, and nothing tells them apart then. -/
def SameErased (svg svg' : String) : Prop :=
  ∃ erased, eraseLabels? svg = some erased ∧ eraseLabels? svg' = some erased

/-- Cutting loses nothing: the tags and their data are the text. -/
theorem chars_of_cut (s : List Char) :
    (∀ data tags, cutData s = some (data, tags) → data ++ tags.flatMap Tag.chars = s) ∧
    (∀ tag tags, cutTag s = some (tag, tags) →
      tag.body ++ '>' :: tag.data ++ tags.flatMap Tag.chars = s) := by
  induction s with
  | nil =>
      constructor
      · intro data tags h
        obtain ⟨rfl, rfl⟩ := Prod.mk.inj (Option.some.inj h)
        rfl
      · intro tag tags h
        cases h
  | cons c s ih =>
      obtain ⟨ihData, ihTag⟩ := ih
      constructor
      -- outside of a tag a bracket opens one
      · intro data tags h
        rw [cutData] at h
        split at h
        · next hc =>
            obtain ⟨⟨tag, tags'⟩, hs, h⟩ := Option.map_eq_some_iff.mp h
            obtain ⟨rfl, rfl⟩ := Prod.mk.inj h
            rw [← ihTag tag tags' hs, hc]
            simp [Tag.chars]
        · obtain ⟨⟨data', tags'⟩, hs, h⟩ := Option.map_eq_some_iff.mp h
          obtain ⟨rfl, rfl⟩ := Prod.mk.inj h
          rw [List.cons_append, ihData data' tags' hs]
      -- inside of a tag a bracket closes it
      · intro tag tags h
        rw [cutTag] at h
        split at h
        · next hc =>
            obtain ⟨⟨data', tags'⟩, hs, h⟩ := Option.map_eq_some_iff.mp h
            obtain ⟨rfl, rfl⟩ := Prod.mk.inj h
            rw [← ihData data' tags' hs, hc]
            rfl
        · obtain ⟨⟨tag', tags'⟩, hs, h⟩ := Option.map_eq_some_iff.mp h
          obtain ⟨rfl, rfl⟩ := Prod.mk.inj h
          rw [← ihTag tag' tags' hs]
          rfl

/-- Erasing changes nothing but labels: a text without any is kept as it is. -/
theorem eraseLabels?_eq_self {svg : String} {data : List Char} {tags : List Tag}
    (h : cutData svg.toList = some (data, tags)) (hbare : bareTags false tags = tags) :
    eraseLabels? svg = some svg := by
  rw [eraseLabels?, h]
  show some (String.ofList (data ++ (bareTags false tags).flatMap Tag.chars)) = some svg
  rw [hbare, (chars_of_cut svg.toList).1 data tags h, String.ofList_toList]

/-! ### What is left of the labels -/

/-- The texts of tags with the names `names`, with the labels of strokes blanked;
`behind` tells whether the first tag stands behind a stroke. -/
def blanked (behind : Bool) : List String → List String → List String
  | [], _ => []
  | name :: names, texts =>
    if name = "text" then
      (if behind then "" else texts.headD "") :: blanked false names texts.tail
    else blanked (name = "line" || name = "polyline") names texts

/-- Baring the tags blanks the labels of strokes, and no other text. -/
theorem textsOf_bareTags (behind : Bool) (tags : List Tag) :
    textsOf (bareTags behind tags) = blanked behind (tags.map Tag.name) (textsOf tags) := by
  induction tags generalizing behind with
  | nil => rfl
  | cons tag tags ih =>
      rw [bareTags, List.map_cons, blanked]
      by_cases htext : tag.name = "text"
      -- a text element is no stroke itself
      · have hstroke : tag.isStroke = false := by
          rw [Tag.isStroke, htext]
          decide
        rw [if_pos htext, textsOf_cons_text htext, hstroke, List.tail_cons, List.headD_cons,
          ← ih false]
        cases behind with
        | false => exact textsOf_cons_text htext _
        | true =>
            have hbare : Tag.name ⟨tag.body, []⟩ = "text" := htext
            simp only [htext, decide_true, Bool.and_self, if_true]
            exact textsOf_cons_text hbare _
      · rw [if_neg htext, textsOf_cons_of_ne htext, ← Tag.isStroke, ← ih]
        simp only [htext, decide_false, Bool.and_false, Bool.false_eq_true, if_false]
        exact textsOf_cons_of_ne htext _

/-- The label behind a line goes; that of a box stays, though it says the same. -/
example : eraseLabels? "<line x=\"1\" />\n<text>a &lt; b</text>\n<rect />\n<text>a &lt; b</text>" =
    some "<line x=\"1\" />\n<text></text>\n<rect />\n<text>a &lt; b</text>" := by
  decide +kernel

/-! ### Texts that are erased alike -/

/-- Two texts that start with character data are cut into the same data and
then into tags that are bared alike, whether or not they stand behind a stroke. -/
def Alike (s s' : List Char) : Prop :=
  ∃ data tags tags', cutData s = some (data, tags) ∧ cutData s' = some (data, tags') ∧
    ∀ behind, bareTags behind tags = bareTags behind tags'

/-- The same of texts that start inside a tag. -/
def AlikeInside (s s' : List Char) : Prop :=
  ∃ tag tags tags', cutTag s = some (tag, tags) ∧ cutTag s' = some (tag, tags') ∧
    ∀ behind, bareTags behind tags = bareTags behind tags'

theorem bareTags_cons_congr {tags tags' : List Tag}
    (h : ∀ behind, bareTags behind tags = bareTags behind tags') (tag : Tag) (behind : Bool) :
    bareTags behind (tag :: tags) = bareTags behind (tag :: tags') := by
  rw [bareTags, bareTags, h]

/-- Behind a stroke the label does not count. -/
theorem bareTags_label_congr {tags tags' : List Tag}
    (h : ∀ behind, bareTags behind tags = bareTags behind tags') {stroke : Tag}
    (hstroke : stroke.isStroke) {body : List Char} (hname : ∀ data, Tag.name ⟨body, data⟩ = "text")
    (data data' : List Char) (behind : Bool) :
    bareTags behind (stroke :: ⟨body, data⟩ :: tags) =
      bareTags behind (stroke :: ⟨body, data'⟩ :: tags') := by
  have hnostroke : ∀ data, Tag.isStroke ⟨body, data⟩ = false := by
    intro data
    rw [Tag.isStroke, hname]
    decide
  simp only [bareTags, hstroke, hname, hnostroke, h false]
  rfl

namespace Alike

variable {s s' : List Char}

theorem nil : Alike [] [] :=
  ⟨[], [], [], rfl, rfl, fun _ => rfl⟩

theorem sameErased {svg svg' : String} (h : Alike svg.toList svg'.toList) :
    SameErased svg svg' := by
  obtain ⟨data, tags, tags', hs, hs', hbare⟩ := h
  refine ⟨String.ofList (data ++ (bareTags false tags).flatMap Tag.chars), ?_, ?_⟩
  · rw [eraseLabels?, hs]
    rfl
  · rw [eraseLabels?, hs', hbare false]
    rfl

theorem append_data {text : List Char} (htext : '<' ∉ text) (h : Alike s s') :
    Alike (text ++ s) (text ++ s') := by
  obtain ⟨data, tags, tags', hs, hs', hbare⟩ := h
  refine ⟨text ++ data, tags, tags', ?_, ?_, hbare⟩
  · rw [cutData_append htext, hs]
    rfl
  · rw [cutData_append htext, hs']
    rfl

/-- What starts with one character starts with data or opens a tag. -/
theorem cons (c : Char) (h : Alike s s') (hinside : c = '<' → AlikeInside s s') :
    Alike (c :: s) (c :: s') := by
  -- a bracket opens the tag that is read next, any other character is data
  by_cases hc : c = '<'
  · obtain ⟨tag, tags, tags', hs, hs', hbare⟩ := hinside hc
    refine ⟨[], tag :: tags, tag :: tags', ?_, ?_, bareTags_cons_congr hbare tag⟩
    · rw [cutData, if_pos hc, hs]
      rfl
    · rw [cutData, if_pos hc, hs']
      rfl
  · obtain ⟨data, tags, tags', hs, hs', hbare⟩ := h
    refine ⟨c :: data, tags, tags', ?_, ?_, hbare⟩
    · rw [cutData, if_neg hc, hs]
      rfl
    · rw [cutData, if_neg hc, hs']
      rfl

/-- Inside of a tag, a character ends the tag or belongs to it. -/
theorem cons_inside (c : Char) (h : c = '>' → Alike s s') (hinside : c ≠ '>' → AlikeInside s s') :
    AlikeInside (c :: s) (c :: s') := by
  -- a bracket closes the tag, any other character belongs to it
  by_cases hc : c = '>'
  · obtain ⟨data, tags, tags', hs, hs', hbare⟩ := h hc
    refine ⟨⟨[], data⟩, tags, tags', ?_, ?_, hbare⟩
    · rw [cutTag, if_pos hc, hs]
      rfl
    · rw [cutTag, if_pos hc, hs']
      rfl
  · obtain ⟨tag, tags, tags', hs, hs', hbare⟩ := hinside hc
    refine ⟨⟨c :: tag.body, tag.data⟩, tags, tags', ?_, ?_, hbare⟩
    · rw [cutTag, if_neg hc, hs]
      rfl
    · rw [cutTag, if_neg hc, hs']
      rfl

/-- One text in front that ends with a closing bracket.  Whether it is read from
inside a tag or not, the reader is outside at its end. -/
theorem append_closed (text : List Char) (h : Alike s s') :
    Alike (text ++ '>' :: s) (text ++ '>' :: s') ∧
      AlikeInside (text ++ '>' :: s) (text ++ '>' :: s') := by
  induction text with
  | nil => exact ⟨cons '>' h fun hc => absurd hc (by decide), cons_inside '>' (fun _ => h) (absurd rfl)⟩
  | cons c text ih =>
      obtain ⟨hdata, hinside⟩ := ih
      exact ⟨cons c hdata fun _ => hinside, cons_inside c (fun _ => hdata) fun _ => hinside⟩

end Alike

/-! ### Tokens that are erased alike -/

/-- Whether two lists of tokens cannot be told apart once the texts are erased, in front
of whatever cannot be told apart. -/
def Twins (tokens tokens' : List Token) : Prop :=
  ∀ s s', Alike s s' →
    Alike (tokens.flatMap Token.chars ++ s) (tokens'.flatMap Token.chars ++ s')

/-- Whether the text of the tokens ends with a closing bracket. -/
def Closed (tokens : List Token) : Prop :=
  ∃ text, tokens.flatMap Token.chars = text ++ ['>']

namespace Closed

variable {tokens : List Token}

theorem start (name : String) (attributes : List Attribute) : Closed [.start name attributes] :=
  ⟨'<' :: name.toList ++ attributes.flatMap Token.attributeChars, by simp [Token.chars]⟩

theorem void (name : String) (attributes : List Attribute) : Closed [.void name attributes] :=
  ⟨'<' :: name.toList ++ attributes.flatMap Token.attributeChars ++ [' ', '/'],
    by simp [Token.chars]⟩

theorem finish (name : String) : Closed [.finish name] :=
  ⟨'<' :: '/' :: name.toList, by simp [Token.chars]⟩

theorem cons (h : Closed tokens) (token : Token) : Closed (token :: tokens) := by
  obtain ⟨text, htext⟩ := h
  exact ⟨token.chars ++ text, by rw [List.flatMap_cons, htext, List.append_assoc]⟩

theorem labelled (name : String) (attributes : List Attribute) (text : String) :
    Closed (Markup.labelled name attributes text) :=
  ((finish name).cons _).cons _

end Closed

namespace Twins

theorem nil : Twins [] [] := fun _ _ h => h

theorem append {t t' u u' : List Token} (h : Twins t t') (h' : Twins u u') :
    Twins (t ++ u) (t' ++ u') := by
  intro s s' hs
  rw [List.flatMap_append, List.flatMap_append, List.append_assoc, List.append_assoc]
  exact h _ _ (h' s s' hs)

/-- The same tokens are twins, if they end outside of a tag. -/
theorem closed {tokens : List Token} (h : Closed tokens) : Twins tokens tokens := by
  obtain ⟨text, htext⟩ := h
  intro s s' hs
  rw [htext, List.append_assoc, List.append_assoc]
  exact (hs.append_closed text).1

theorem data {text : String} (h : '<' ∉ text.toList) : Twins [.data text] [.data text] := by
  intro s s' hs
  simpa [Token.chars] using hs.append_data h

/-- Two strokes of one shape with labels in one place. -/
theorem label {stroke : String} (hname : IsName stroke)
    (hstroke : stroke = "line" ∨ stroke = "polyline") {shape placing : List Attribute}
    (hshape : PlainAttributes shape) (hplacing : PlainAttributes placing) (text text' : String) :
    Twins (.void stroke shape :: .data "\n" :: labelled "text" placing text)
      (.void stroke shape :: .data "\n" :: labelled "text" placing text') := by
  intro s s' ⟨data, tags, tags', hs, hs', hbare⟩
  -- both texts are cut into the same three tags, and only the data of the second one differs
  have hcut : ∀ (text : String) {s : List Char} {tags : List Tag},
      cutData s = some (data, tags) →
      cutData ((Token.void stroke shape :: Token.data "\n" ::
        labelled "text" placing text).flatMap Token.chars ++ s) =
      some ([], ⟨voidBody stroke shape, ['\n']⟩ ::
        ⟨startBody "text" placing, escapeChars text.toList⟩ :: ⟨"/text".toList, data⟩ :: tags) := by
    intro text s tags hs
    have hchars : (Token.void stroke shape :: Token.data "\n" ::
        labelled "text" placing text).flatMap Token.chars ++ s =
        '<' :: (voidBody stroke shape ++ '>' ::
          (['\n'] ++ ((labelled "text" placing text).flatMap Token.chars ++ s))) := by
      simp [Token.chars, voidBody]
    rw [hchars, cutData_tag (not_mem_gt_voidBody hname hshape), cutData_append (by decide),
      cutData_labelled hplacing text hs]
    rfl
  refine ⟨[], _, _, hcut text hs, hcut text' hs', ?_⟩
  refine bareTags_label_congr (bareTags_cons_congr hbare _) ?_
    (name_startBody (by decide) placing) _ _
  rw [Tag.isStroke, name_voidBody hname]
  simpa using hstroke

/-- Pieces on lines of their own. -/
theorem onLines {pieces pieces' : List (List Token)} (h : List.Forall₂ Twins pieces pieces') :
    Twins (Markup.onLines pieces) (Markup.onLines pieces') := by
  induction h with
  | nil => exact nil
  | @cons piece piece' rest rest' hpiece hrest ih =>
      have hbreak : Twins [.data "\n"] [.data "\n"] := data (by decide)
      rcases hrest with - | ⟨hnext, hrest⟩
      · rw [Markup.onLines, Markup.onLines, List.intercalate_singleton,
          List.intercalate_singleton]
        exact hpiece
      · rw [Markup.onLines, Markup.onLines, List.intercalate_cons_cons,
          List.intercalate_cons_cons, List.append_assoc, List.append_assoc]
        exact hpiece.append (hbreak.append ih)

/-- Twins are printed to texts that nothing tells apart once they are erased. -/
theorem sameErased {tokens tokens' : List Token} (h : Twins tokens tokens') :
    SameErased (print tokens) (print tokens') := by
  refine Alike.sameErased ?_
  simpa [print] using h [] [] Alike.nil

end Twins

end SequenceChart.Markup
