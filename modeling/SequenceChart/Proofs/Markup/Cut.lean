/-
SequenceChart/Proofs/Markup/Cut.lean

Cutting markup into tags and character data.

A reader of markup who knows nothing of its meaning cuts it at each `<` and
the next `>`: what is between them is a tag, and what follows up to the next
`<` is its character data.  `Shows tokens names texts` says what such a reader
makes of some tokens, whatever text comes after them: the names of the tags,
and the texts of the elements called `text`.  There is one rule for each kind
of token, one for a labelled element, and one for putting pieces together; the
drawing is then read off piece by piece.
-/
import Mathlib.Data.List.Forall2
import SequenceChart.Markup.Token
import SequenceChart.Proofs.Markup.Escape

namespace SequenceChart.Markup

/-! ### The reader -/

/-- A tag, without its brackets, and the character data behind it. -/
structure Tag where
  body : List Char
  data : List Char
  deriving DecidableEq, Repr

mutual

/-- Cut a text that starts with character data.  An unfinished tag is refused. -/
def cutData : List Char → Option (List Char × List Tag)
  | [] => some ([], [])
  | c :: s =>
    if c = '<' then (cutTag s).map fun (tag, tags) => ([], tag :: tags)
    else (cutData s).map fun (data, tags) => (c :: data, tags)

/-- Cut a text that starts inside a tag. -/
def cutTag : List Char → Option (Tag × List Tag)
  | [] => none
  | c :: s =>
    if c = '>' then (cutData s).map fun (data, tags) => (⟨[], data⟩, tags)
    else (cutTag s).map fun (tag, tags) => (⟨c :: tag.body, tag.data⟩, tags)

end

/-- The tags of a text. -/
def cut? (s : String) : Option (List Tag) :=
  (cutData s.toList).map Prod.snd

/-- The name of a tag ends at its first space; that of an end tag has a slash
in front. -/
def Tag.name (tag : Tag) : String :=
  String.ofList (tag.body.takeWhile (· ≠ ' '))

/-- The texts of the `text` elements, their entities undone. -/
def textsOf (tags : List Tag) : List String :=
  (tags.filter fun tag => tag.name = "text").map fun tag =>
    String.ofList (unescapeChars tag.data)

/-! ### Cutting what was put together -/

theorem cutData_append {data : List Char} (h : '<' ∉ data) (s : List Char) :
    cutData (data ++ s) = (cutData s).map fun r => (data ++ r.1, r.2) := by
  induction data with
  | nil => simp
  | cons c data ih =>
      obtain ⟨hc, hdata⟩ := not_or.mp (List.mem_cons.not.mp h)
      rw [List.cons_append, cutData, if_neg (Ne.symm hc), ih hdata, Option.map_map]
      rfl

/-- A tag is read up to its closing bracket. -/
theorem cutTag_append {body : List Char} (h : '>' ∉ body) (s : List Char) :
    cutTag (body ++ '>' :: s) = (cutData s).map fun r => (⟨body, r.1⟩, r.2) := by
  induction body with
  | nil => rw [List.nil_append, cutTag, if_pos rfl]
  | cons c body ih =>
      obtain ⟨hc, hbody⟩ := not_or.mp (List.mem_cons.not.mp h)
      rw [List.cons_append, cutTag, if_neg (Ne.symm hc), ih hbody, Option.map_map]
      rfl

/-- A tag is read from bracket to bracket, and then its data. -/
theorem cutData_tag {body : List Char} (h : '>' ∉ body) (s : List Char) :
    cutData ('<' :: (body ++ '>' :: s)) =
      (cutData s).map fun r => ([], ⟨body, r.1⟩ :: r.2) := by
  rw [cutData, if_pos rfl, cutTag_append h, Option.map_map]
  rfl

/-! ### What tokens show -/

/-- Whatever follows, the tokens are cut into tags with the names `names`, and
the texts of the `text` elements among them are `texts`. -/
def Shows (tokens : List Token) (names texts : List String) : Prop :=
  ∀ s data tags, cutData s = some (data, tags) →
    ∃ data' tags', cutData (tokens.flatMap Token.chars ++ s) = some (data', tags') ∧
      tags'.map Tag.name = names ++ tags.map Tag.name ∧ textsOf tags' = texts ++ textsOf tags

/-- Whether a name can be told from what stands behind it in a tag. -/
structure IsName (name : String) : Prop where
  plain : Plain name.toList
  solid : ' ' ∉ name.toList

instance (name : String) : Decidable (IsName name) :=
  decidable_of_iff (Plain name.toList ∧ ' ' ∉ name.toList)
    ⟨fun h => ⟨h.1, h.2⟩, fun h => ⟨h.plain, h.solid⟩⟩

/-- Whether no attribute has a character that starts or ends a tag. -/
def PlainAttributes (attributes : List Attribute) : Prop :=
  ∀ a ∈ attributes, Plain a.1.toList ∧ Plain a.2.toList

theorem plain_attributeChars {attributes : List Attribute} (h : PlainAttributes attributes) :
    Plain (attributes.flatMap Token.attributeChars) := by
  intro c hc
  obtain ⟨a, ha, hc⟩ := List.mem_flatMap.mp hc
  obtain ⟨hname, hvalue⟩ := h a ha
  have : Plain (Token.attributeChars a) := by
    simp [Token.attributeChars, hname, hvalue]
  exact this c hc

/-- The name of a tag is what stands before its attributes. -/
theorem takeWhile_tagName {name : String} (h : ' ' ∉ name.toList) {rest : List Char}
    (hrest : rest = [] ∨ rest.head? = some ' ') :
    String.ofList ((name.toList ++ rest).takeWhile (· ≠ ' ')) = name := by
  have hall : ∀ c ∈ name.toList, decide (c ≠ ' ') = true := by
    intro c hc
    simpa using fun hcc : c = ' ' => h (hcc ▸ hc)
  rw [List.takeWhile_append_of_pos hall]
  rcases hrest with rfl | hrest
  · rw [List.takeWhile_nil, List.append_nil, String.ofList_toList]
  · obtain ⟨rest, rfl⟩ := List.head?_eq_some_iff.mp hrest
    rw [List.takeWhile_cons_of_neg (by simp), List.append_nil, String.ofList_toList]

theorem head?_attributeChars (attributes : List Attribute) :
    attributes.flatMap Token.attributeChars = [] ∨
      (attributes.flatMap Token.attributeChars).head? = some ' ' := by
  rcases attributes with - | ⟨a, attributes⟩
  · exact .inl rfl
  · exact .inr rfl

/-! ### Tags between their brackets -/

section

variable {name : String} {attributes : List Attribute}

/-- What a start tag has between its brackets. -/
def startBody (name : String) (attributes : List Attribute) : List Char :=
  name.toList ++ attributes.flatMap Token.attributeChars

/-- What the tag of an empty element has between its brackets. -/
def voidBody (name : String) (attributes : List Attribute) : List Char :=
  name.toList ++ (attributes.flatMap Token.attributeChars ++ [' ', '/'])

/-- What an end tag has between its brackets. -/
def finishBody (name : String) : List Char :=
  '/' :: name.toList

/-- The name of a start tag is what stands before its attributes. -/
theorem name_startBody (h : IsName name) (attributes : List Attribute) (data : List Char) :
    Tag.name ⟨startBody name attributes, data⟩ = name :=
  takeWhile_tagName h.solid (head?_attributeChars attributes)

theorem name_voidBody (h : IsName name) (attributes : List Attribute) (data : List Char) :
    Tag.name ⟨voidBody name attributes, data⟩ = name := by
  refine takeWhile_tagName h.solid ?_
  rcases head?_attributeChars attributes with hnil | hhead
  · exact .inr (by rw [hnil]; rfl)
  · exact .inr (by rw [List.head?_append, hhead]; rfl)

theorem name_finishBody (h : IsName name) (data : List Char) :
    Tag.name ⟨finishBody name, data⟩ = "/" ++ name := by
  have hslash : ("/" ++ name).toList = finishBody name := by simp [finishBody]
  have hsolid : ' ' ∉ ("/" ++ name).toList := by
    rw [hslash, finishBody, List.mem_cons, not_or]
    exact ⟨by decide, h.solid⟩
  rw [← hslash, ← List.append_nil ("/" ++ name).toList]
  exact takeWhile_tagName hsolid (.inl rfl)

/-- No attribute closes the tag that it stands in. -/
theorem not_mem_gt_startBody (hname : IsName name) (h : PlainAttributes attributes) :
    '>' ∉ startBody name attributes :=
  (plain_append.mpr ⟨hname.plain, plain_attributeChars h⟩).not_mem_gt

theorem not_mem_gt_voidBody (hname : IsName name) (h : PlainAttributes attributes) :
    '>' ∉ voidBody name attributes :=
  (plain_append.mpr ⟨hname.plain, plain_append.mpr ⟨plain_attributeChars h, by decide⟩⟩).not_mem_gt

theorem not_mem_gt_finishBody (hname : IsName name) : '>' ∉ finishBody name :=
  (plain_cons.mpr ⟨by decide, hname.plain⟩).not_mem_gt

theorem chars_void (name : String) (attributes : List Attribute) :
    (Token.void name attributes).chars = '<' :: (voidBody name attributes ++ ['>']) := by
  simp [Token.chars, voidBody]

/-- A labelled `text` element is cut into two tags, and its label is the data of
the first. -/
theorem cutData_labelled (h : PlainAttributes attributes) (text : String) {s data : List Char}
    {tags : List Tag} (hs : cutData s = some (data, tags)) :
    cutData ((labelled "text" attributes text).flatMap Token.chars ++ s) =
      some ([], ⟨startBody "text" attributes, escapeChars text.toList⟩ ::
        ⟨"/text".toList, data⟩ :: tags) := by
  have hchars : (labelled "text" attributes text).flatMap Token.chars ++ s =
      '<' :: (startBody "text" attributes ++ '>' ::
        (escapeChars text.toList ++ '<' :: ("/text".toList ++ '>' :: s))) := by
    simp [labelled, Token.chars, startBody]
  rw [hchars, cutData_tag (not_mem_gt_startBody (by decide) h),
    cutData_append (plain_escapeChars _).not_mem_lt, cutData_tag (by decide), hs]
  simp

end

theorem textsOf_cons_of_ne {tag : Tag} (h : tag.name ≠ "text") (tags : List Tag) :
    textsOf (tag :: tags) = textsOf tags := by
  simp [textsOf, h]

theorem textsOf_cons_text {tag : Tag} (h : tag.name = "text") (tags : List Tag) :
    textsOf (tag :: tags) = String.ofList (unescapeChars tag.data) :: textsOf tags := by
  simp [textsOf, h]

/-- What a reader makes of the text of the tokens. -/
theorem cut?_print {tokens : List Token} {names texts : List String}
    (h : Shows tokens names texts) :
    ∃ tags, cut? (print tokens) = some tags ∧ tags.map Tag.name = names ∧ textsOf tags = texts := by
  obtain ⟨data, tags, hcut, hnames, htexts⟩ := h [] [] [] rfl
  refine ⟨tags, ?_, by simpa using hnames, by simpa [textsOf] using htexts⟩
  rw [List.append_nil] at hcut
  rw [cut?, print, String.toList_ofList, hcut]
  rfl

namespace Shows

theorem nil : Shows [] [] [] :=
  fun _ data tags h => ⟨data, tags, h, rfl, rfl⟩

theorem append {tokens tokens' : List Token} {names names' texts texts' : List String}
    (h : Shows tokens names texts) (h' : Shows tokens' names' texts') :
    Shows (tokens ++ tokens') (names ++ names') (texts ++ texts') := by
  intro s data tags hs
  -- what the first tokens are followed by is the second ones and the rest
  obtain ⟨data₁, tags₁, hcut₁, hnames₁, htexts₁⟩ := h' s data tags hs
  obtain ⟨data₂, tags₂, hcut₂, hnames₂, htexts₂⟩ := h _ data₁ tags₁ hcut₁
  refine ⟨data₂, tags₂, ?_, ?_, ?_⟩
  · rw [List.flatMap_append, List.append_assoc, hcut₂]
  · rw [hnames₂, hnames₁, List.append_assoc]
  · rw [htexts₂, htexts₁, List.append_assoc]

/-- A single tag that starts no `text` element. -/
theorem of_tag {token : Token} {body : List Char} {name : String}
    (htoken : token.chars = '<' :: (body ++ ['>'])) (hbody : '>' ∉ body)
    (hname : ∀ data, Tag.name ⟨body, data⟩ = name) (hne : name ≠ "text") :
    Shows [token] [name] [] := by
  intro s data tags hs
  refine ⟨[], ⟨body, data⟩ :: tags, ?_, ?_, ?_⟩
  · have hchars : [token].flatMap Token.chars ++ s = '<' :: (body ++ '>' :: s) := by
      simp [htoken]
    rw [hchars, cutData_tag hbody, hs]
    rfl
  · rw [List.map_cons, hname]
    rfl
  · exact textsOf_cons_of_ne (by rw [hname]; exact hne) tags

theorem start {name : String} {attributes : List Attribute} (hname : IsName name)
    (hne : name ≠ "text") (h : PlainAttributes attributes) :
    Shows [.start name attributes] [name] [] :=
  of_tag rfl (not_mem_gt_startBody hname h) (name_startBody hname attributes) hne

theorem void {name : String} {attributes : List Attribute} (hname : IsName name)
    (hne : name ≠ "text") (h : PlainAttributes attributes) :
    Shows [.void name attributes] [name] [] :=
  of_tag (chars_void name attributes) (not_mem_gt_voidBody hname h)
    (name_voidBody hname attributes) hne

theorem finish {name : String} (hname : IsName name) :
    Shows [.finish name] ["/" ++ name] [] := by
  refine of_tag rfl (not_mem_gt_finishBody hname) (name_finishBody hname) ?_
  intro htext
  have := congrArg String.toList htext
  rw [String.toList_append] at this
  exact absurd (List.cons.inj this).1 (by decide)

/-- Text between the tags shows nothing. -/
theorem data {text : String} (h : Plain text.toList) : Shows [.data text] [] [] := by
  intro s data tags hs
  refine ⟨text.toList ++ data, tags, ?_, rfl, rfl⟩
  have hchars : [Token.data text].flatMap Token.chars ++ s = text.toList ++ s := by
    simp [Token.chars]
  rw [hchars, cutData_append h.not_mem_lt, hs]
  rfl

/-! #### One token in front of others -/

section

variable {tokens : List Token} {names texts : List String} {name : String}
  {attributes : List Attribute}

theorem start_cons (hname : IsName name) (hne : name ≠ "text") (h : PlainAttributes attributes)
    (hrest : Shows tokens names texts) :
    Shows (.start name attributes :: tokens) (name :: names) texts :=
  (start hname hne h).append hrest

theorem void_cons (hname : IsName name) (hne : name ≠ "text") (h : PlainAttributes attributes)
    (hrest : Shows tokens names texts) :
    Shows (.void name attributes :: tokens) (name :: names) texts :=
  (void hname hne h).append hrest

theorem data_cons {text : String} (h : Plain text.toList) (hrest : Shows tokens names texts) :
    Shows (.data text :: tokens) names texts :=
  (data h).append hrest

end

/-- A labelled `text` element shows its label, whatever the label is. -/
theorem labelled {attributes : List Attribute} (h : PlainAttributes attributes) (text : String) :
    Shows (Markup.labelled "text" attributes text) ["text", "/text"] [text] := by
  intro s data tags hs
  -- the escaped label is the character data between two tags
  have hname : ∀ data, Tag.name ⟨startBody "text" attributes, data⟩ = "text" :=
    name_startBody (by decide) attributes
  have hend : Tag.name ⟨"/text".toList, data⟩ = "/text" := by
    show String.ofList ("/text".toList.takeWhile (· ≠ ' ')) = "/text"
    decide
  refine ⟨[], _, cutData_labelled h text hs, ?_, ?_⟩
  · rw [List.map_cons, List.map_cons, hname, hend]
    rfl
  · rw [textsOf_cons_text (hname _), textsOf_cons_of_ne (by rw [hend]; decide),
      unescapeChars_escapeChars, String.ofList_toList]
    rfl

/-- Pieces on lines of their own; a line break shows nothing. -/
theorem onLines {pieces : List (List Token)} {shown : List (List String × List String)}
    (h : List.Forall₂ (fun piece s => Shows piece s.1 s.2) pieces shown) :
    Shows (Markup.onLines pieces) (shown.flatMap Prod.fst) (shown.flatMap Prod.snd) := by
  induction h with
  | nil => exact nil
  | @cons piece _ rest _ hpiece _ ih =>
      by_cases hlast : rest = []
      · subst hlast
        -- the last piece has no line break behind it
        rw [Markup.onLines, List.intercalate_singleton, ← List.append_nil piece]
        exact hpiece.append ih
      · rw [Markup.onLines, List.intercalate_cons_of_ne_nil hlast, List.append_assoc]
        exact hpiece.append ((Shows.data (by decide)).append ih)

end Shows

end SequenceChart.Markup
