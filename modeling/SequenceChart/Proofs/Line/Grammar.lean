/-
SequenceChart/Proofs/Line/Grammar.lean

The grammar of lines.

What a line is depends only on its text between the outer blanks.  `Conforms`
lists, kind by kind, which texts are of that kind and what is read from them:
the directives by their keywords, the interactions by the least position that
separates the text.  Every line that is classified conforms to it
(`classify_conforms`), and the position at which an interaction is cut is the
one that the first match of the interaction pattern finds.
-/
import SequenceChart.Proofs.Line.Pattern

namespace SequenceChart.Line

open Text

/-! ### Directives -/

/-- The longest start of a text that has no blank. -/
structure IsKeyword (t keyword : List Char) : Prop where
  start : keyword <+: t
  solid : ∀ c ∈ keyword, ¬ isBlank c
  longest : ∀ other, other <+: t → (∀ c ∈ other, ¬ isBlank c) → other.length ≤ keyword.length

/-- The directive `d` is the one written in the text `t`. -/
structure IsDirective (t : List Char) (d : Directive) : Prop where
  keyword : IsKeyword t d.keyword.toList
  value : d.value.toList = trimChars (t.drop d.keyword.toList.length)
  theme : d.kind = .theme ↔ d.keyword = ":theme"
  title : d.kind = .title ↔ d.keyword = ":title"
  author : d.kind = .author ↔ d.keyword = ":author"
  date : d.kind = .date ↔ d.keyword = ":date"
  unknown : d.kind = .unknown ↔ d.keyword ∉ [":theme", ":title", ":author", ":date"]

/-- The first characters that are not blank are the keyword. -/
theorem isKeyword_takeWhile (t : List Char) : IsKeyword t (t.takeWhile fun c => !isBlank c) where
  start := List.takeWhile_prefix _
  solid := by
    intro c hc
    simpa using List.mem_takeWhile_imp hc
  longest := by
    -- a longer prefix would have a blank in it
    intro other hother hsolid
    obtain ⟨rest, rfl⟩ := hother
    have hall : ∀ c ∈ other, (!isBlank c) = true := by
      intro c hc
      simpa using hsolid c hc
    rw [List.takeWhile_append_of_pos hall, List.length_append]
    omega

theorem drop_length_takeWhile (p : Char → Bool) (t : List Char) :
    t.drop (t.takeWhile p).length = t.dropWhile p := by
  have h := List.takeWhile_append_dropWhile (p := p) (l := t)
  calc t.drop (t.takeWhile p).length
      = (t.takeWhile p ++ t.dropWhile p).drop (t.takeWhile p).length := by rw [h]
    _ = t.dropWhile p := List.drop_left

/-- What is read off a directive is its keyword, its value and its kind. -/
theorem isDirective_readDirective (t : List Char) : IsDirective t (readDirective t) := by
  -- the kind is read off the keyword alone
  have hkind : ∀ keyword : String,
      (directiveKind keyword = .theme ↔ keyword = ":theme") ∧
      (directiveKind keyword = .title ↔ keyword = ":title") ∧
      (directiveKind keyword = .author ↔ keyword = ":author") ∧
      (directiveKind keyword = .date ↔ keyword = ":date") ∧
      (directiveKind keyword = .unknown ↔ keyword ∉ [":theme", ":title", ":author", ":date"]) := by
    intro keyword
    unfold directiveKind
    grind
  obtain ⟨theme, title, author, date, unknown⟩ := hkind (readDirective t).keyword
  refine ⟨?_, ?_, theme, title, author, date, unknown⟩
  · simp only [readDirective, String.toList_ofList]
    exact isKeyword_takeWhile t
  · simp only [readDirective, String.toList_ofList, drop_length_takeWhile]

/-! ### Interactions -/

/-- The trimmed parts of the text `t`, cut at the least position that
separates it. -/
def CutsInto (t sender receiver message : List Char) : Prop :=
  ∃ i r, IsLeast (separators t) i ∧ IsSeparator t i r ∧ sender = trimChars (t.take i) ∧
    receiver = trimChars (beforeColon r) ∧ message = trimChars (afterColon r)

/-- The parts of a text are those at its least separator, trimmed. -/
theorem cutsInto_iff {t sender receiver message : List Char} :
    CutsInto t sender receiver message ↔
      ∃ parts, parts? t = some parts ∧ sender = trimChars parts.sender ∧
        receiver = trimChars parts.receiver ∧ message = trimChars parts.message := by
  simp only [parts?_eq_some_iff]
  constructor
  · rintro ⟨i, r, hi, hr, hsender, hreceiver, hmessage⟩
    exact ⟨_, ⟨i, r, hi, hr, rfl⟩, hsender, hreceiver, hmessage⟩
  · rintro ⟨_, ⟨i, r, hi, hr, rfl⟩, hsender, hreceiver, hmessage⟩
    exact ⟨i, r, hi, hr, hsender, hreceiver, hmessage⟩

theorem cutsInto_of_parts?_eq_some {t : List Char} {parts : Parts} (h : parts? t = some parts)
    {sender receiver message : List Char} :
    CutsInto t sender receiver message ↔
      sender = trimChars parts.sender ∧ receiver = trimChars parts.receiver ∧
        message = trimChars parts.message := by
  rw [cutsInto_iff]
  constructor
  · rintro ⟨parts', hparts, hcut⟩
    rw [h] at hparts
    obtain rfl := Option.some.inj hparts
    exact hcut
  · intro hcut
    exact ⟨parts, h, hcut⟩

theorem not_cutsInto_of_parts?_eq_none {t : List Char} (h : parts? t = none)
    {sender receiver message : List Char} : ¬ CutsInto t sender receiver message := by
  rw [cutsInto_iff, h]
  rintro ⟨parts, hparts, -⟩
  cases hparts

section

variable {t : List Char} {parts : Parts}

/-- What the three kinds of unmarked lines ask for, said of the parts. -/
theorem exists_cutsInto_nil_iff (h : parts? t = some parts) :
    (∃ sender receiver, CutsInto t sender receiver [] ∧ sender ≠ [] ∧ receiver ≠ []) ↔
      trimChars parts.sender ≠ [] ∧ trimChars parts.receiver ≠ [] ∧
        trimChars parts.message = [] := by
  simp only [cutsInto_of_parts?_eq_some h]
  constructor
  · rintro ⟨sender, receiver, ⟨rfl, rfl, hmessage⟩, hsender, hreceiver⟩
    exact ⟨hsender, hreceiver, hmessage.symm⟩
  · rintro ⟨hsender, hreceiver, hmessage⟩
    exact ⟨_, _, ⟨rfl, rfl, hmessage.symm⟩, hsender, hreceiver⟩

/-- Whether a text has all three parts. -/
theorem exists_cutsInto_message_iff (h : parts? t = some parts) :
    (∃ sender receiver message, CutsInto t sender receiver message ∧
      sender ≠ [] ∧ receiver ≠ [] ∧ message ≠ []) ↔
      trimChars parts.sender ≠ [] ∧ trimChars parts.receiver ≠ [] ∧
        trimChars parts.message ≠ [] := by
  simp only [cutsInto_of_parts?_eq_some h]
  constructor
  · rintro ⟨sender, receiver, message, ⟨rfl, rfl, rfl⟩, hne⟩
    exact hne
  · intro hne
    exact ⟨_, _, _, ⟨rfl, rfl, rfl⟩, hne⟩

/-- Whether a text lacks one of its ends, however it is cut. -/
theorem forall_cutsInto_missing_iff (h : parts? t = some parts) :
    (∀ sender receiver message, CutsInto t sender receiver message →
      sender = [] ∨ receiver = []) ↔
      trimChars parts.sender = [] ∨ trimChars parts.receiver = [] := by
  simp only [cutsInto_of_parts?_eq_some h]
  constructor
  · intro hall
    exact hall _ _ _ ⟨rfl, rfl, rfl⟩
  · rintro hor sender receiver message ⟨rfl, rfl, rfl⟩
    exact hor

end

/-! ### The outcome of a cut -/

section

variable {number : Int} {text : String} {parts : Parts}

theorem ofParts_of_missing
    (h : trimChars parts.sender = [] ∨ trimChars parts.receiver = []) :
    ofParts number text parts = { number := number, text := text, kind := .invalid } := by
  unfold ofParts
  rw [if_pos (by simpa using h)]

theorem ofParts_of_no_message (hsender : trimChars parts.sender ≠ [])
    (hreceiver : trimChars parts.receiver ≠ []) (hmessage : trimChars parts.message = []) :
    ofParts number text parts =
      { number := number, text := text, kind := .interaction
        sender := some (String.ofList (trimChars parts.sender))
        receiver := some (String.ofList (trimChars parts.receiver)) } := by
  unfold ofParts
  rw [if_neg (by simp [hsender, hreceiver]), if_pos (by simp [hmessage])]

theorem ofParts_of_message (hsender : trimChars parts.sender ≠ [])
    (hreceiver : trimChars parts.receiver ≠ []) (hmessage : trimChars parts.message ≠ []) :
    ofParts number text parts =
      { number := number, text := text, kind := .interactionWithMessage
        sender := some (String.ofList (trimChars parts.sender))
        receiver := some (String.ofList (trimChars parts.receiver))
        message := some (String.ofList (trimChars parts.message)) } := by
  unfold ofParts
  rw [if_neg (by simp [hsender, hreceiver]), if_neg (by simp [hmessage])]

theorem number_ofParts : (ofParts number text parts).number = number := by
  unfold ofParts
  dsimp only
  split
  · rfl
  · split <;> rfl

end

/-! ### Lines -/

/-- Whether a trimmed text is neither empty nor marked by its first
character. -/
def Unmarked (t : List Char) : Prop :=
  t ≠ [] ∧ t.head? ≠ some '#' ∧ t.head? ≠ some ':'

/-- The line `line` is what the text `text` says, `t` being the part of it
between the outer blanks. -/
structure Conforms (text : String) (t : List Char) (line : Line) : Prop where
  text_eq : line.text = text
  /-- Which texts are of which kind. -/
  blank : line.kind = .blank ↔ t = []
  comment : line.kind = .comment ↔ t.head? = some '#'
  directive : line.kind = .directive ↔ t.head? = some ':'
  interaction : line.kind = .interaction ↔ Unmarked t ∧
    ∃ sender receiver, CutsInto t sender receiver [] ∧ sender ≠ [] ∧ receiver ≠ []
  interactionWithMessage : line.kind = .interactionWithMessage ↔ Unmarked t ∧
    ∃ sender receiver message, CutsInto t sender receiver message ∧
      sender ≠ [] ∧ receiver ≠ [] ∧ message ≠ []
  invalid : line.kind = .invalid ↔ Unmarked t ∧
    ∀ sender receiver message, CutsInto t sender receiver message → sender = [] ∨ receiver = []
  /-- What is read from a directive, and from nothing else. -/
  reads_directive : line.kind = .directive → ∃ d, line.directive = some d ∧ IsDirective t d
  no_directive : line.kind ≠ .directive → line.directive = none
  /-- What is read from an interaction, and from nothing else. -/
  reads_interaction : line.isInteraction → ∃ sender receiver message,
    CutsInto t sender receiver message ∧
    line.sender = some (String.ofList sender) ∧ line.receiver = some (String.ofList receiver) ∧
    line.message = if message = [] then none else some (String.ofList message)
  no_interaction : ¬ line.isInteraction →
    line.sender = none ∧ line.receiver = none ∧ line.message = none

variable {text : String} {number : Int}

/-- A line that its first character marks, or an empty one. -/
theorem classify_of_marked {t : List Char} (ht : trimChars text.toList = t) (h : ¬ Unmarked t) :
    Conforms text t (classify text number) := by
  unfold classify
  rw [ht]
  split
  · constructor <;> simp [Unmarked, isInteraction]
  · constructor <;> simp [Unmarked, isInteraction]
  · next rest =>
      have hread := isDirective_readDirective (':' :: rest)
      constructor <;> simp [Unmarked, isInteraction, hread]
  · next hblank hcomment hdirective =>
      -- all other texts are unmarked
      refine absurd ⟨hblank, ?_, ?_⟩ h
      · intro hhead
        obtain ⟨rest, rfl⟩ := List.head?_eq_some_iff.mp hhead
        exact hcomment rest rfl
      · intro hhead
        obtain ⟨rest, rfl⟩ := List.head?_eq_some_iff.mp hhead
        exact hdirective rest rfl

/-- A line that is no comment and no directive is cut at its separator. -/
theorem classify_of_unmarked {t : List Char} (ht : trimChars text.toList = t) (h : Unmarked t) :
    classify text number =
      match parts? t with
      | some parts => ofParts number text parts
      | none => { number := number, text := text, kind := .invalid } := by
  obtain ⟨hblank, hcomment, hdirective⟩ := h
  unfold classify
  rw [ht]
  split
  · exact absurd rfl hblank
  · exact absurd rfl hcomment
  · exact absurd rfl hdirective
  · rfl

/-- What is made of the parts of a line conforms to the grammar. -/
theorem conforms_ofParts {t : List Char} {parts : Parts} (hu : Unmarked t)
    (h : parts? t = some parts) : Conforms text t (ofParts number text parts) := by
  obtain ⟨hblank, hcomment, hdirective⟩ := id hu
  have hplain := exists_cutsInto_nil_iff h
  have hwith := exists_cutsInto_message_iff h
  have hmissing := forall_cutsInto_missing_iff h
  have hown : CutsInto t (trimChars parts.sender) (trimChars parts.receiver)
      (trimChars parts.message) := (cutsInto_of_parts?_eq_some h).mpr ⟨rfl, rfl, rfl⟩
  -- a missing name makes the line invalid, whichever it is
  by_cases hsender : trimChars parts.sender = []
  · rw [ofParts_of_missing (.inl hsender)]
    constructor <;> simp [isInteraction, hblank, hcomment, hdirective, hplain, hwith, hmissing,
      hu, hsender]
  by_cases hreceiver : trimChars parts.receiver = []
  · rw [ofParts_of_missing (.inr hreceiver)]
    constructor <;> simp [isInteraction, hblank, hcomment, hdirective, hplain, hwith, hmissing,
      hu, hreceiver]
  by_cases hmessage : trimChars parts.message = []
  · rw [ofParts_of_no_message hsender hreceiver hmessage]
    have hread : ∃ sender receiver message, CutsInto t sender receiver message ∧
        some (String.ofList (trimChars parts.sender)) = some (String.ofList sender) ∧
        some (String.ofList (trimChars parts.receiver)) = some (String.ofList receiver) ∧
        none = if message = [] then none else some (String.ofList message) :=
      ⟨_, _, _, hown, rfl, rfl, (if_pos hmessage).symm⟩
    constructor
    case reads_interaction => exact fun _ => hread
    all_goals simp [isInteraction, hblank, hcomment, hdirective, hplain, hwith, hmissing, hu,
      hsender, hreceiver, hmessage]
  · rw [ofParts_of_message hsender hreceiver hmessage]
    have hread : ∃ sender receiver message, CutsInto t sender receiver message ∧
        some (String.ofList (trimChars parts.sender)) = some (String.ofList sender) ∧
        some (String.ofList (trimChars parts.receiver)) = some (String.ofList receiver) ∧
        some (String.ofList (trimChars parts.message)) =
          if message = [] then none else some (String.ofList message) :=
      ⟨_, _, _, hown, rfl, rfl, (if_neg hmessage).symm⟩
    constructor
    case reads_interaction => exact fun _ => hread
    all_goals simp [isInteraction, hblank, hcomment, hdirective, hplain, hwith, hmissing, hu,
      hsender, hreceiver, hmessage]

/-- An unmarked line that nothing separates. -/
theorem conforms_of_parts?_eq_none {t : List Char} (hu : Unmarked t) (h : parts? t = none) :
    Conforms text t { number := number, text := text, kind := .invalid } := by
  obtain ⟨hblank, hcomment, hdirective⟩ := id hu
  have hno : ∀ sender receiver message, ¬ CutsInto t sender receiver message :=
    fun _ _ _ => not_cutsInto_of_parts?_eq_none h
  constructor <;> simp [isInteraction, hblank, hcomment, hdirective, hno, hu]

/-- Every classified line is what its text says. -/
theorem conforms_classify (text : String) (number : Int) :
    Conforms text (trimChars text.toList) (classify text number) := by
  by_cases hu : Unmarked (trimChars text.toList)
  · rw [classify_of_unmarked rfl hu]
    rcases h : parts? (trimChars text.toList) with - | parts
    · exact conforms_of_parts?_eq_none hu h
    · exact conforms_ofParts hu h
  · exact classify_of_marked rfl hu

theorem number_classify (text : String) (number : Int) :
    (classify text number).number = number := by
  unfold classify
  split
  · rfl
  · rfl
  · rfl
  · split
    · exact number_ofParts
    · rfl

/-- The number of a line is not looked at when it is classified. -/
theorem classify_number (text : String) (number : Int) :
    classify text number = { classify text with number := number } := by
  unfold classify
  split
  · rfl
  · rfl
  · rfl
  · split
    · unfold ofParts
      dsimp only
      split
      · rfl
      · split <;> rfl
    · rfl

theorem isInteraction_classify (text : String) (number : Int) :
    (classify text number).isInteraction = (classify text).isInteraction := by
  rw [classify_number]
  rfl

theorem isIssue_classify (text : String) (number : Int) :
    (classify text number).isIssue = (classify text).isIssue := by
  rw [classify_number]
  rfl

/-! ### The pattern on trimmed texts -/

/-- A trimmed text does not end in a line feed. -/
theorem not_endsInFeed_trimChars (s : List Char) : ¬ Pattern.EndsInFeed (trimChars s) := by
  intro h
  have hprefix : ['\n'] <+: (trimLeft s).reverse.dropWhile isBlank := by
    have := List.reverse_prefix.mpr h
    simpa [trimChars, trimRight] using this
  -- what is left after the outer blanks does not end in one
  obtain ⟨rest, hrest⟩ := hprefix
  have hhead := List.head?_dropWhile_not isBlank (trimLeft s).reverse
  rw [← hrest] at hhead
  have hblank : isBlank '\n' = true := by decide
  simp [hblank] at hhead

/-- The pattern finds the least position that separates a trimmed text, if
there is one. -/
theorem firstMatch?_trimChars (s : List Char) :
    (Pattern.firstMatch? (trimChars s) = none ↔ separators (trimChars s) = ∅) ∧
    ∀ sender receiver message, Pattern.firstMatch? (trimChars s) = some (sender, receiver, message) →
      ∃ i r, IsLeast (separators (trimChars s)) i ∧ IsSeparator (trimChars s) i r ∧
        sender = (trimChars s).take i ∧ receiver = beforeColon r ∧ message.getD [] = afterColon r := by
  have hmatch := Pattern.map_firstMatch? (not_endsInFeed_trimChars s)
  constructor
  · rw [← parts?_eq_none_iff, ← hmatch, Option.map_eq_none_iff]
  · intro sender receiver message h
    rw [h] at hmatch
    obtain ⟨i, r, hi, hr, hparts⟩ := parts?_eq_some_iff.mp hmatch.symm
    obtain ⟨hsender, hreceiver, hmessage⟩ := Parts.mk.inj hparts
    exact ⟨i, r, hi, hr, hsender, hreceiver, hmessage⟩

/-- **The classifier accepts exactly its grammar.**  Every text is classified
under its own number as the kind that the grammar says, with the names, the
message and the directive that stand in it.  The position at which an
interaction is cut is the one that the first match of the interaction pattern
finds: no other way through the pattern counts. -/
theorem classify_conforms (text : String) (number : Int) :
    (classify text number).number = number ∧
    Conforms text (trimChars text.toList) (classify text number) ∧
    (Pattern.firstMatch? (trimChars text.toList) = none ↔
      separators (trimChars text.toList) = ∅) ∧
    ∀ sender receiver message,
      Pattern.firstMatch? (trimChars text.toList) = some (sender, receiver, message) →
      ∃ i r, IsLeast (separators (trimChars text.toList)) i ∧
        IsSeparator (trimChars text.toList) i r ∧
        sender = (trimChars text.toList).take i ∧ receiver = beforeColon r ∧
        message.getD [] = afterColon r := by
  obtain ⟨hnone, hsome⟩ := firstMatch?_trimChars text.toList
  exact ⟨number_classify text number, conforms_classify text number, hnone, hsome⟩

/-- A line feed in the message leaves the first arrow without effect, and the
second one comes too late. -/
theorem classify_conforms_feed :
    Unmarked (trimChars " x -> y: a\nb -> c ".toList) ∧
      ∀ sender receiver message,
        CutsInto (trimChars " x -> y: a\nb -> c ".toList) sender receiver message →
        sender = [] ∨ receiver = [] := by
  obtain ⟨-, hconforms, -⟩ := classify_conforms " x -> y: a\nb -> c " 7
  have hkind : (classify " x -> y: a\nb -> c " 7).kind = .invalid := by decide +kernel
  exact hconforms.invalid.mp hkind

end SequenceChart.Line
