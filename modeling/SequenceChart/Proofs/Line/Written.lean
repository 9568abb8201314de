/-
SequenceChart/Proofs/Line/Written.lean

Interactions that are written down and read again.

`Parts.Writable` says which parts an interaction can have on a line without a
line feed: the sender holds no arrow and has no mark in front, the receiver
holds no colon, both are there, and nothing is padded.  However such parts are
laid out on a line (`Spacing`), the line is read as the interaction with these
parts; and every interaction that is read has parts of this kind, so it can be
written in its plain form without a change of meaning (`classify_write`).

A layout has two pitfalls, where a part would run into the arrow: a sender that
ends in a dash, and a receiver that starts with a `>`.  There the padding must
not be empty (`Spacing.Fits`).
-/
import SequenceChart.Proofs.Line.Grammar
import SequenceChart.Proofs.Text.Trim

namespace SequenceChart.Line

open Text

/-! ### Parts that can be written -/

/-- Parts that a line without a line feed can carry. -/
structure Parts.Writable (parts : Parts) : Prop where
  sender_feedless : '\n' ∉ parts.sender
  receiver_feedless : '\n' ∉ parts.receiver
  message_feedless : '\n' ∉ parts.message
  sender_trimmed : Trimmed parts.sender
  receiver_trimmed : Trimmed parts.receiver
  message_trimmed : Trimmed parts.message
  sender_ne : parts.sender ≠ []
  receiver_ne : parts.receiver ≠ []
  /-- A mark in front would make the line a comment or a directive. -/
  unmarked : parts.sender.head? ≠ some '#' ∧ parts.sender.head? ≠ some ':'
  arrowless : ¬ ['-', '>'] <:+: parts.sender
  colonless : ':' ∉ parts.receiver

/-- The line is an interaction with these parts; an empty message is none. -/
structure Carries (line : Line) (parts : Parts) : Prop where
  kind : line.kind = if parts.message = [] then .interaction else .interactionWithMessage
  sender : line.sender = some (String.ofList parts.sender)
  receiver : line.receiver = some (String.ofList parts.receiver)
  message : line.message =
    if parts.message = [] then none else some (String.ofList parts.message)

/-! ### Layouts -/

/-- Blanks that may stand anywhere between the parts: all but the line feed. -/
abbrev Padding :=
  { p : List Char // ∀ c ∈ p, isBlank c ∧ c ≠ '\n' }

namespace Padding

/-- No padding. -/
def none : Padding :=
  ⟨[], by simp⟩

/-- One blank. -/
def single (c : Char) (h : isBlank c ∧ c ≠ '\n') : Padding :=
  ⟨[c], by simpa using h⟩

@[simp] theorem val_none : none.val = [] := rfl

@[simp] theorem val_single (c : Char) (h : isBlank c ∧ c ≠ '\n') : (single c h).val = [c] := rfl

theorem blank (p : Padding) : ∀ c ∈ p.val, isBlank c :=
  fun c hc => (p.property c hc).1

theorem not_mem {c : Char} (p : Padding) (hc : ¬ isBlank c ∨ c = '\n') : c ∉ p.val := by
  intro h
  obtain ⟨hblank, hne⟩ := p.property c h
  rcases hc with hc | hc
  · exact hc hblank
  · exact hne hc

end Padding

/-- How the parts of an interaction are laid out on a line.  Each run of the
arrow has one character more than its count here, so that none is empty. -/
structure Spacing where
  dashes : Nat
  heads : Nat
  indent : Padding
  beforeArrow : Padding
  afterArrow : Padding
  afterReceiver : Padding
  beforeMessage : Padding
  trailing : Padding

namespace Spacing

/-- No part runs into the arrow. -/
structure Fits (spacing : Spacing) (parts : Parts) : Prop where
  beforeArrow : parts.sender.getLast? = some '-' → spacing.beforeArrow.val ≠ []
  afterArrow : parts.receiver.head? = some '>' → spacing.afterArrow.val ≠ []

/-- The arrow, with at least one dash and one head. -/
def arrow (spacing : Spacing) : List Char :=
  List.replicate (spacing.dashes + 1) '-' ++ List.replicate (spacing.heads + 1) '>'

/-- The line up to the colon. -/
def front (spacing : Spacing) (parts : Parts) : List Char :=
  spacing.indent ++ parts.sender ++ spacing.beforeArrow ++ spacing.arrow ++
    spacing.afterArrow ++ parts.receiver ++ spacing.afterReceiver

/-- The parts as a line. -/
def write (spacing : Spacing) (parts : Parts) : String :=
  String.ofList (spacing.front parts ++ [':'] ++ spacing.beforeMessage ++ parts.message ++
    spacing.trailing)

/-- The parts as a line without a colon, for an interaction without a message. -/
def writeBare (spacing : Spacing) (parts : Parts) : String :=
  String.ofList (spacing.front parts ++ spacing.beforeMessage ++ parts.message ++ spacing.trailing)

/-- One blank on each side of the arrow, one behind the colon. -/
def plain : Spacing where
  dashes := 0
  heads := 0
  indent := .none
  beforeArrow := .single ' ' (by decide)
  afterArrow := .single ' ' (by decide)
  afterReceiver := .none
  beforeMessage := .single ' ' (by decide)
  trailing := .none

end Spacing

/-- The plain form of an interaction, such as `A -> B: hello` or `A -> B`. -/
def Parts.plainText (parts : Parts) : String :=
  String.ofList parts.sender ++ " -> " ++ String.ofList parts.receiver ++
    if parts.message = [] then "" else ": " ++ String.ofList parts.message

/-! ### The first arrow -/

/-- No arrow starts in a text that holds none and cannot lend a dash to what
follows it. -/
theorem afterArrow?_append_eq_none {u rest : List Char} (hne : u ≠ [])
    (harrow : ¬ ['-', '>'] <:+: u) (hlast : u.getLast? ≠ some '-') :
    afterArrow? (u ++ rest) = none := by
  rcases h : afterArrow? (u ++ rest) with - | r
  · rfl
  obtain ⟨a, b, heq, -⟩ := afterArrow?_eq_some.mp h
  -- the first run of the arrow ends either beyond `u` or inside of it
  rcases List.append_eq_append_iff.mp heq with ⟨w, hw, -⟩ | ⟨w, hu, hw⟩
  · have hall : ∀ c ∈ u, c = '-' := fun c hc =>
      List.eq_of_mem_replicate (hw ▸ List.mem_append_left w hc)
    exact absurd (by rw [List.getLast?_eq_some_getLast hne, hall _ (List.getLast_mem hne)]) hlast
  · rcases w with - | ⟨c, w⟩
    · rw [List.append_nil] at hu
      exact absurd (by rw [hu, List.replicate_succ', List.getLast?_concat]) hlast
    · obtain rfl : '>' = c := by
        rw [List.replicate_succ, List.cons_append, List.cons_append] at hw
        exact (List.cons.inj hw).1
      refine absurd ⟨List.replicate a '-', w, ?_⟩ harrow
      rw [hu, List.replicate_succ']
      simp

/-- A line is cut behind a text that holds neither an arrow nor a line feed. -/
theorem parts?_append {u rest : List Char} (hfeed : '\n' ∉ u) (harrow : ¬ ['-', '>'] <:+: u)
    (hlast : u.getLast? ≠ some '-') {receiver message : List Char}
    (h : separator? rest = some (receiver, message)) :
    parts? (u ++ rest) = some ⟨u, receiver, message⟩ := by
  induction u with
  | nil =>
      rcases rest with - | ⟨c, rest⟩
      · cases h
      · rw [List.nil_append, parts?, h]
  | cons c u ih =>
      -- no separator starts within `u`, nor at a dash at its end
      have hnone : separator? (c :: (u ++ rest)) = none := by
        rw [separator?, ← List.cons_append, afterArrow?_append_eq_none (by simp) harrow hlast]
        rfl
      have hc : c ≠ '\n' := fun hc => hfeed (by simp [hc])
      have hrest : parts? (u ++ rest) = some ⟨u, receiver, message⟩ := by
        refine ih (fun hu => hfeed (List.mem_cons_of_mem c hu))
          (fun hu => harrow (hu.trans (List.suffix_cons c u).isInfix)) fun hu => hlast ?_
        rw [List.getLast?_cons, hu]
        rfl
      rw [List.cons_append, parts?, hnone]
      simp only [if_neg hc, hrest, Option.map_some]

/-- Behind a written arrow stand the receiver and the message. -/
theorem separator?_arrow (spacing : Spacing) {r : List Char} (hhead : r.head? ≠ some '>')
    (hfeed : '\n' ∉ r) :
    separator? (spacing.arrow ++ r) = some (beforeColon r, afterColon r) := by
  refine separator?_eq_some.mpr ⟨r, ⟨by simp, ?_, ?_⟩, rfl, rfl⟩
  · exact ⟨spacing.dashes, spacing.heads, by simp [Spacing.arrow], hhead⟩
  · refine .inr fun h => hfeed ?_
    exact (List.dropWhile_suffix _).mem (List.mem_of_mem_tail h)

/-- Blanks behind a text complete no arrow. -/
theorem arrowless_append_blanks {f p : List Char} (hf : ¬ ['-', '>'] <:+: f)
    (hp : ∀ c ∈ p, isBlank c) : ¬ ['-', '>'] <:+: f ++ p := by
  have hgt : '>' ∉ p := fun h => absurd (hp _ h) (by decide)
  rintro ⟨x, y, hxy⟩
  have hxy' : (x ++ ['-']) ++ '>' :: y = f ++ p := by
    rw [← hxy]
    simp
  rcases List.append_eq_append_iff.mp hxy' with ⟨w, rfl, hw⟩ | ⟨w, -, rfl⟩
  · rcases w with - | ⟨c, w⟩
    · exact hgt (by rw [← List.nil_append p, ← hw]; simp)
    · obtain ⟨rfl, -⟩ := List.cons.inj hw
      exact hf ⟨x, w, by simp⟩
  · exact hgt (by simp)

/-- The first colon behind a text without one. -/
theorem colon_cut {u : List Char} (hu : ':' ∉ u) (rest : List Char) :
    beforeColon (u ++ ':' :: rest) = u ∧ afterColon (u ++ ':' :: rest) = rest := by
  have hall : ∀ c ∈ u, decide (c ≠ ':') = true := by
    intro c hc
    simpa using fun hcc : c = ':' => hu (hcc ▸ hc)
  constructor
  · rw [beforeColon, List.takeWhile_append_of_pos hall, List.takeWhile_cons_of_neg (by simp),
      List.append_nil]
  · rw [afterColon, List.dropWhile_append_of_pos hall, List.dropWhile_cons_of_neg (by simp)]
    rfl

theorem no_colon_cut {u : List Char} (hu : ':' ∉ u) : beforeColon u = u ∧ afterColon u = [] := by
  have hall : ∀ c ∈ u, decide (c ≠ ':') = true := by
    intro c hc
    simpa using fun hcc : c = ':' => hu (hcc ▸ hc)
  constructor
  · exact List.takeWhile_eq_self_iff.mpr hall
  · rw [afterColon, List.dropWhile_eq_nil_iff.mpr hall]
    rfl

/-! ### Reading what was written -/

/-- A cut with the trimmed parts of an interaction gives that interaction. -/
theorem carries_ofParts {parts cut : Parts} {number : Int} {text : String}
    (hsender : trimChars cut.sender = parts.sender)
    (hreceiver : trimChars cut.receiver = parts.receiver)
    (hmessage : trimChars cut.message = parts.message)
    (hs : parts.sender ≠ []) (hr : parts.receiver ≠ []) :
    (ofParts number text cut).Carries parts := by
  rw [← hsender] at hs
  rw [← hreceiver] at hr
  by_cases hm : parts.message = []
  · rw [ofParts_of_no_message hs hr (hmessage.trans hm), hsender, hreceiver]
    exact ⟨(if_pos hm).symm, rfl, rfl, (if_pos hm).symm⟩
  · rw [ofParts_of_message hs hr (by rwa [hmessage]), hsender, hreceiver, hmessage]
    exact ⟨(if_neg hm).symm, rfl, rfl, (if_neg hm).symm⟩

section

variable {parts : Parts} {spacing : Spacing}

/-- What stands behind the arrow, up to the colon. -/
def Spacing.back (spacing : Spacing) (parts : Parts) : List Char :=
  spacing.afterArrow ++ parts.receiver ++ spacing.afterReceiver

theorem trimChars_back (hw : parts.Writable) : trimChars (spacing.back parts) = parts.receiver :=
  trimChars_padded spacing.afterArrow.blank spacing.afterReceiver.blank hw.receiver_trimmed

theorem not_mem_back {c : Char} (hc : c ∉ parts.receiver) (hpad : ¬ isBlank c ∨ c = '\n') :
    c ∉ spacing.back parts := by
  simp only [Spacing.back, List.mem_append, not_or]
  exact ⟨⟨spacing.afterArrow.not_mem hpad, hc⟩, spacing.afterReceiver.not_mem hpad⟩

/-- The receiver does not lengthen the arrow. -/
theorem head?_afterArrow (hw : parts.Writable) (hfit : spacing.Fits parts) (rest : List Char) :
    (spacing.afterArrow ++ parts.receiver ++ rest).head? ≠ some '>' := by
  rw [List.append_assoc]
  rcases hp : spacing.afterArrow.val with - | ⟨c, p⟩
  · rw [List.nil_append, List.head?_append_of_ne_nil _ hw.receiver_ne]
    exact fun h => hfit.afterArrow h hp
  · have hblank : isBlank c := spacing.afterArrow.blank c (by rw [hp]; simp)
    rintro h
    obtain rfl : c = '>' := Option.some.inj h
    exact absurd hblank (by decide)

/-- The sender does not lengthen the arrow either. -/
theorem getLast?_beforeArrow (hfit : spacing.Fits parts) :
    (parts.sender ++ spacing.beforeArrow).getLast? ≠ some '-' := by
  intro h
  by_cases hp : spacing.beforeArrow.val = []
  · rw [hp, List.append_nil] at h
    exact hfit.beforeArrow h hp
  · rw [List.getLast?_append_of_ne_nil _ hp] at h
    exact absurd (spacing.beforeArrow.blank _ (List.mem_of_getLast? h)) (by decide)

/-- A line is cut where it was put together: whatever `r` stands behind the
arrow, the line carries the parts if `r` holds the last two of them and ends
where the trailing blanks start. -/
theorem carries_of_laidOut (hw : parts.Writable) (hfit : spacing.Fits parts) {text : String}
    {r q : List Char} (htext : text.toList =
      spacing.indent ++ (parts.sender ++ spacing.beforeArrow ++ (spacing.arrow ++ r)) ++ q)
    (hq : ∀ c ∈ q, isBlank c) (hhead : r.head? ≠ some '>') (hfeed : '\n' ∉ r) (hne : r ≠ [])
    (hlast : ∀ c ∈ r.getLast?, ¬ isBlank c)
    (hreceiver : trimChars (beforeColon r) = parts.receiver)
    (hmessage : trimChars (afterColon r) = parts.message) (number : Int) :
    (classify text number).Carries parts := by
  -- between its padding a line is trimmed, so trimming finds its bounds
  have htrimmed : Trimmed (parts.sender ++ spacing.beforeArrow ++ (spacing.arrow ++ r)) := by
    rw [List.append_assoc]
    refine hw.sender_trimmed.append hw.sender_ne (by simp [hne]) ?_
    rw [List.getLast?_append_of_ne_nil _ (by simp [hne]), List.getLast?_append_of_ne_nil _ hne]
    exact hlast
  have htrim : trimChars text.toList =
      parts.sender ++ spacing.beforeArrow ++ (spacing.arrow ++ r) := by
    rw [htext]
    exact trimChars_padded spacing.indent.blank hq htrimmed
  have hunmarked : Unmarked (parts.sender ++ spacing.beforeArrow ++ (spacing.arrow ++ r)) := by
    rw [Unmarked, List.append_assoc, List.head?_append_of_ne_nil _ hw.sender_ne]
    exact ⟨by simp [hw.sender_ne], hw.unmarked⟩
  have hcut := parts?_append (u := parts.sender ++ spacing.beforeArrow)
    (by simp [hw.sender_feedless, spacing.beforeArrow.not_mem (.inr rfl)])
    (arrowless_append_blanks hw.arrowless spacing.beforeArrow.blank)
    (getLast?_beforeArrow hfit) (separator?_arrow spacing hhead hfeed)
  rw [classify_of_unmarked htrim hunmarked, hcut]
  refine carries_ofParts ?_ hreceiver hmessage hw.sender_ne hw.receiver_ne
  exact trimChars_padded (p := []) (by simp) spacing.beforeArrow.blank hw.sender_trimmed

/-- A line is read as it was written. -/
theorem carries_classify_write (hw : parts.Writable) (hfit : spacing.Fits parts) (number : Int) :
    (classify (spacing.write parts) number).Carries parts := by
  have hcolon : ':' ∉ spacing.back parts := not_mem_back hw.colonless (.inl (by decide))
  have hfeed : '\n' ∉ spacing.back parts := not_mem_back hw.receiver_feedless (.inr rfl)
  by_cases hm : parts.message = []
  · -- the colon is the last character that is not blank
    obtain ⟨hbefore, hafter⟩ := colon_cut hcolon []
    refine carries_of_laidOut hw hfit (r := spacing.back parts ++ [':'])
      (q := spacing.beforeMessage ++ spacing.trailing) ?_ ?_ ?_ ?_ (by simp) ?_ ?_ ?_ number
    · simp [Spacing.write, Spacing.front, Spacing.back, hm]
    · exact List.forall_mem_append.mpr ⟨spacing.beforeMessage.blank, spacing.trailing.blank⟩
    · simpa [Spacing.back] using head?_afterArrow hw hfit (spacing.afterReceiver ++ [':'])
    · simp [hfeed]
    · intro c hc
      obtain rfl : ':' = c := by simpa using hc
      decide
    · rw [hbefore, trimChars_back hw]
    · rw [hafter, hm]
      rfl
  · obtain ⟨hbefore, hafter⟩ := colon_cut hcolon (spacing.beforeMessage ++ parts.message)
    refine carries_of_laidOut hw hfit
      (r := spacing.back parts ++ ':' :: (spacing.beforeMessage ++ parts.message))
      (q := spacing.trailing) ?_ spacing.trailing.blank ?_ ?_ (by simp) ?_ ?_ ?_ number
    · simp [Spacing.write, Spacing.front, Spacing.back]
    · simpa [Spacing.back] using head?_afterArrow hw hfit
        (spacing.afterReceiver ++ ':' :: (spacing.beforeMessage ++ parts.message))
    · simp [hfeed, spacing.beforeMessage.not_mem (.inr rfl), hw.message_feedless]
    · rw [List.getLast?_append_of_ne_nil _ (by simp), ← List.cons_append,
        List.getLast?_append_of_ne_nil _ hm]
      exact hw.message_trimmed.last
    · rw [hbefore, trimChars_back hw]
    · rw [hafter]
      have := trimChars_padded (q := []) spacing.beforeMessage.blank (by simp) hw.message_trimmed
      rwa [List.append_nil] at this

/-- A line without a message and without a colon is read as it was written. -/
theorem carries_classify_writeBare (hw : parts.Writable) (hfit : spacing.Fits parts)
    (hm : parts.message = []) (number : Int) :
    (classify (spacing.writeBare parts) number).Carries parts := by
  -- without a colon all that follows the arrow is the receiver
  have hcolon : ':' ∉ spacing.afterArrow ++ parts.receiver := by
    rw [List.mem_append, not_or]
    exact ⟨spacing.afterArrow.not_mem (.inl (by decide)), hw.colonless⟩
  obtain ⟨hbefore, hafter⟩ := no_colon_cut hcolon
  refine carries_of_laidOut hw hfit (r := spacing.afterArrow ++ parts.receiver)
    (q := spacing.afterReceiver ++ (spacing.beforeMessage ++ spacing.trailing))
    ?_ ?_ ?_ ?_ (by simp [hw.receiver_ne]) ?_ ?_ ?_ number
  · simp [Spacing.writeBare, Spacing.front, hm]
  · refine List.forall_mem_append.mpr ⟨spacing.afterReceiver.blank, ?_⟩
    exact List.forall_mem_append.mpr ⟨spacing.beforeMessage.blank, spacing.trailing.blank⟩
  · simpa using head?_afterArrow hw hfit []
  · simp [spacing.afterArrow.not_mem (.inr rfl), hw.receiver_feedless]
  · rw [List.getLast?_append_of_ne_nil _ hw.receiver_ne]
    exact hw.receiver_trimmed.last
  · rw [hbefore]
    have := trimChars_padded (q := []) spacing.afterArrow.blank (by simp) hw.receiver_trimmed
    rwa [List.append_nil] at this
  · rw [hafter, hm]
    rfl

/-- The plain form is one of the layouts. -/
theorem carries_classify_plainText (hw : parts.Writable) (number : Int) :
    (classify parts.plainText number).Carries parts := by
  by_cases hm : parts.message = []
  · -- without a message there is no blank in front of it
    have hplain : parts.plainText =
        Spacing.writeBare { Spacing.plain with beforeMessage := .none } parts := by
      rw [← String.toList_inj]
      simp [Parts.plainText, Spacing.writeBare, Spacing.front, Spacing.arrow, Spacing.plain, hm]
    rw [hplain]
    exact carries_classify_writeBare hw ⟨fun _ => by decide, fun _ => by decide⟩ hm number
  · have hplain : parts.plainText = Spacing.plain.write parts := by
      rw [← String.toList_inj]
      simp [Parts.plainText, Spacing.write, Spacing.front, Spacing.arrow, Spacing.plain, hm]
    rw [hplain]
    exact carries_classify_write hw ⟨fun _ => by decide, fun _ => by decide⟩ number

end

/-! ### Writing what was read -/

section

variable {t : List Char} {text : String} {number : Int}

/-- An interaction comes from a cut in which both names are there. -/
theorem exists_cut_of_isInteraction (h : (classify text number).isInteraction) :
    Unmarked (trimChars text.toList) ∧ ∃ cut, parts? (trimChars text.toList) = some cut ∧
      trimChars cut.sender ≠ [] ∧ trimChars cut.receiver ≠ [] ∧
      classify text number = ofParts number text cut := by
  by_cases hu : Unmarked (trimChars text.toList)
  · rw [classify_of_unmarked rfl hu] at h ⊢
    rcases hcut : parts? (trimChars text.toList) with - | cut
    · simp [hcut, isInteraction] at h
    · rw [hcut] at h
      refine ⟨hu, cut, rfl, ?_, ?_, rfl⟩
      · intro hs
        simp [ofParts_of_missing (.inl hs), isInteraction] at h
      · intro hr
        simp [ofParts_of_missing (.inr hr), isInteraction] at h
  · -- a marked line is a comment or a directive, an empty one is blank
    have hconforms := conforms_classify text number
    have hkind := hconforms.interaction
    have hkind' := hconforms.interactionWithMessage
    simp only [hu, false_and, iff_false] at hkind hkind'
    simp [isInteraction, hkind, hkind'] at h

/-- Before the least position that separates a line without a line feed there
is no arrow. -/
theorem arrowless_take {i : Nat} (hi : IsLeast (separators t) i) (hfeed : '\n' ∉ t) :
    ¬ ['-', '>'] <:+: t.take i := by
  rintro ⟨x, y, hxy⟩
  obtain ⟨z, ht⟩ : ∃ z, t = x ++ '-' :: '>' :: z :=
    ⟨y ++ t.drop i, by
      calc t = t.take i ++ t.drop i := (List.take_append_drop i t).symm
        _ = x ++ '-' :: '>' :: (y ++ t.drop i) := by rw [← hxy]; simp⟩
  -- the arrow starts where `x` ends, which is a separator too
  have hsep : x.length ∈ separators t := by
    refine ⟨z.dropWhile (· = '>'), ?_, ?_, .inr fun h => hfeed ?_⟩
    · exact fun h => hfeed (List.mem_of_mem_take h)
    · rw [ht, List.drop_left, ← afterArrow?_eq_some]
      rfl
    · have hz : '\n' ∈ z := (List.dropWhile_suffix _).mem
        ((List.dropWhile_suffix _).mem (List.mem_of_mem_tail h))
      simp [ht, hz]
  have hle : i ≤ x.length := hi.2 hsep
  have hlen : (t.take i).length ≤ i := by simp
  rw [← hxy] at hlen
  simp only [List.length_append, List.length_cons, List.length_nil] at hlen
  omega

/-- The parts that a line without a line feed is cut into can be written. -/
theorem writable_of_cut (ht : Trimmed t) (hfeed : '\n' ∉ t) (hu : Unmarked t) {cut : Parts}
    (hcut : parts? t = some cut) (hs : trimChars cut.sender ≠ [])
    (hr : trimChars cut.receiver ≠ []) :
    Parts.Writable ⟨trimChars cut.sender, trimChars cut.receiver, trimChars cut.message⟩ := by
  obtain ⟨i, r, hi, hsep, rfl⟩ := parts?_eq_some_iff.mp hcut
  dsimp only at hs hr ⊢
  have hmem : ∀ {c s}, c ∈ trimChars s → c ∈ s := fun hc => (trimChars_isInfix _).subset hc
  have hrest : r <:+ t := by
    obtain ⟨a, b, heq, -⟩ := hsep.arrow
    refine List.IsSuffix.trans ?_ (List.drop_suffix i t)
    rw [heq, ← List.append_assoc]
    exact List.suffix_append _ r
  have hrfeed : '\n' ∉ r := fun h => hfeed (hrest.mem h)
  refine
    { sender_feedless := fun h => hfeed (List.mem_of_mem_take (hmem h))
      receiver_feedless := fun h => hrfeed ((List.takeWhile_prefix _).mem (hmem h))
      message_feedless := fun h =>
        hrfeed ((List.dropWhile_suffix _).mem (List.mem_of_mem_tail (hmem h)))
      sender_trimmed := trimmed_trimChars _
      receiver_trimmed := trimmed_trimChars _
      message_trimmed := trimmed_trimChars _
      sender_ne := hs
      receiver_ne := hr
      unmarked := ?_
      arrowless := fun h => arrowless_take hi hfeed (h.trans (trimChars_isInfix _))
      colonless := ?_ }
  · -- the line starts with the sender
    have hhead : (trimChars (t.take i)).head? = t.head? := by
      rcases t with - | ⟨c, t⟩
      · exact absurd rfl hu.1
      · rcases i with - | i
        · exact absurd rfl hs
        · exact head?_trimChars (ht.head c rfl) rfl
    rw [hhead]
    exact hu.2
  · intro h
    have := List.mem_takeWhile_imp (hmem h)
    simp at this

/-- **Interactions survive being written down.**  Whatever the layout, parts
that can be written are read back as they are, also without the colon if there
is no message; and the parts of every interaction on a line without a line feed
can be written, so that its plain form is read as the same interaction. -/
theorem classify_write :
    (∀ (parts : Parts) (spacing : Spacing) (number : Int),
      parts.Writable → spacing.Fits parts →
      (classify (spacing.write parts) number).Carries parts ∧
      (parts.message = [] → (classify (spacing.writeBare parts) number).Carries parts)) ∧
    (∀ (text : String) (number : Int), '\n' ∉ text.toList → (classify text number).isInteraction →
      ∃ parts : Parts, parts.Writable ∧ (classify text number).Carries parts ∧
        ∀ number', (classify parts.plainText number').Carries parts) := by
  constructor
  · intro parts spacing number hw hfit
    exact ⟨carries_classify_write hw hfit number,
      fun hm => carries_classify_writeBare hw hfit hm number⟩
  · intro text number hfeed h
    obtain ⟨hu, cut, hcut, hs, hr, hread⟩ := exists_cut_of_isInteraction h
    have hfeed' : '\n' ∉ trimChars text.toList := fun h => hfeed ((trimChars_isInfix _).subset h)
    have hw := writable_of_cut (trimmed_trimChars _) hfeed' hu hcut hs hr
    refine ⟨_, hw, ?_, carries_classify_plainText hw⟩
    rw [hread]
    exact carries_ofParts rfl rfl rfl hs hr

/-- A sender that ends in a dash, a receiver that starts with a `>` and holds
an arrow, and blanks of several kinds; and a line whose sender has a colon. -/
theorem classify_write_colliding :
    (classify "\ta >-\u00a0--->> >b -> c :\u3000d: -> e " 3).Carries
      ⟨"a >-".toList, ">b -> c".toList, "d: -> e".toList⟩ ∧
    '\n' ∉ "x:y-->>z:".toList ∧ (classify "x:y-->>z:" 4).isInteraction ∧
    ∃ parts : Parts, parts.Writable ∧ (classify "x:y-->>z:" 4).Carries parts ∧
      (classify parts.plainText 5).Carries parts := by
  obtain ⟨hwrite, hread⟩ := classify_write
  have hw : Parts.Writable ⟨"a >-".toList, ">b -> c".toList, "d: -> e".toList⟩ := by
    constructor <;> decide +kernel
  have hfit : Spacing.Fits
      { dashes := 2, heads := 1, indent := .single '\t' (by decide)
        beforeArrow := .single '\u00a0' (by decide), afterArrow := .single ' ' (by decide)
        afterReceiver := .single ' ' (by decide), beforeMessage := .single '\u3000' (by decide)
        trailing := .single ' ' (by decide) } ⟨"a >-".toList, ">b -> c".toList, "d: -> e".toList⟩ :=
    ⟨fun _ => by decide, fun _ => by decide⟩
  have hfeed : '\n' ∉ "x:y-->>z:".toList := by decide +kernel
  have hkind : (classify "x:y-->>z:" 4).isInteraction := by decide +kernel
  refine ⟨(hwrite _ _ 3 hw hfit).1, hfeed, hkind, ?_⟩
  obtain ⟨parts, hparts, hcarries, hplain⟩ := hread _ 4 hfeed hkind
  exact ⟨parts, hparts, hcarries, hplain 5⟩

end

end SequenceChart.Line
