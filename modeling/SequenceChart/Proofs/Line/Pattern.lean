/-
SequenceChart/Proofs/Line/Pattern.lean

The pattern of an interaction line.

An interaction line can also be described by a pattern with backtracking,

    ^(.*?)(-+>+)([^:]*)(?::(.*))?$

whose parts are the sender, the arrow, the receiver and the message.  A run of
such a pattern can be read in several ways, and the order in which the ways
are tried decides which match is the first: here every part is given as the
list of its ways, the preferred one in front.  For a text that does not end in
a line feed the first match of the pattern is the cut at the least position
that separates (`map_firstMatch?`); no other way of reading a run, and no
other arrow, ever matters.
-/
import SequenceChart.Proofs.Line.Separator

namespace SequenceChart.Line.Pattern

/-! ### Runs and their ways -/

/-- The ways to read a run of characters of a class, the shortest in front:
what is read and what is left. -/
def lazyRuns (p : Char → Bool) : List Char → List (List Char × List Char)
  | [] => [([], [])]
  | c :: t =>
    ([], c :: t) :: if p c then (lazyRuns p t).map fun (run, rest) => (c :: run, rest) else []

/-- The same ways with the longest in front. -/
def greedyRuns (p : Char → Bool) : List Char → List (List Char × List Char)
  | [] => [([], [])]
  | c :: t =>
    (if p c then (greedyRuns p t).map fun (run, rest) => (c :: run, rest) else []) ++
      [([], c :: t)]

/-- What the ways to read one or more of a character leave, the longest run in
front. -/
def afterRuns (c : Char) : List Char → List (List Char)
  | [] => []
  | d :: t => if d = c then (greedyRuns (· = c) t).map Prod.snd else []

/-- Whether a text ends here; a last line feed is looked over. -/
def atEnd (t : List Char) : Bool :=
  t = [] || t = ['\n']

/-! ### The parts of the pattern -/

/-- The ways to read an optional message up to the end of the text. -/
def messages (r : List Char) : List (Option (List Char)) :=
  (match r with
    | ':' :: m => ((greedyRuns (· ≠ '\n') m).filter fun w => atEnd w.2).map fun w => some w.1
    | _ => []) ++ if atEnd r then [none] else []

/-- The ways to read a receiver and an optional message. -/
def receivers (r : List Char) : List (List Char × Option (List Char)) :=
  (greedyRuns (· ≠ ':') r).flatMap fun (receiver, rest) =>
    (messages rest).map fun message => (receiver, message)

/-- The ways to read an arrow and what follows it. -/
def arrows (t : List Char) : List (List Char × Option (List Char)) :=
  (afterRuns '-' t).flatMap fun rest => (afterRuns '>' rest).flatMap receivers

/-- All matches of the pattern: the sender, the receiver and the message. -/
def allMatches (t : List Char) : List (List Char × List Char × Option (List Char)) :=
  (lazyRuns (· ≠ '\n') t).flatMap fun (sender, rest) =>
    (arrows rest).map fun parts => (sender, parts)

/-- The match that a backtracking matcher finds first. -/
def firstMatch? (t : List Char) : Option (List Char × List Char × Option (List Char)) :=
  (allMatches t).head?

/-! ### What a run can leave -/

/-- The longest way is in front, and every other way leaves a character of the
class unread. -/
theorem greedyRuns_eq_cons (p : Char → Bool) (t : List Char) :
    ∃ others, greedyRuns p t = (t.takeWhile p, t.dropWhile p) :: others ∧
      ∀ w ∈ others, w.2 <:+ t ∧ ∃ c rest, p c ∧ w.2 = c :: rest := by
  induction t with
  | nil => exact ⟨[], rfl, by simp⟩
  | cons c t ih =>
      obtain ⟨others, heq, hothers⟩ := ih
      by_cases hc : p c
      -- a shorter way for the rest is one for the whole, and to take nothing is the last of all
      · refine ⟨(others.map fun (run, rest) => (c :: run, rest)) ++ [([], c :: t)], ?_, ?_⟩
        · rw [greedyRuns, if_pos hc, heq, List.takeWhile_cons_of_pos hc,
            List.dropWhile_cons_of_pos hc]
          rfl
        · intro w hw
          rcases List.mem_append.mp hw with hw | hw
          · obtain ⟨v, hv, rfl⟩ := List.mem_map.mp hw
            obtain ⟨hsuffix, d, rest, hd, hrest⟩ := hothers v hv
            exact ⟨hsuffix.trans (List.suffix_cons c t), d, rest, hd, hrest⟩
          · obtain rfl := List.mem_singleton.mp hw
            exact ⟨List.suffix_rfl, c, t, hc, rfl⟩
      · refine ⟨[], ?_, by simp⟩
        rw [greedyRuns, if_neg hc, List.takeWhile_cons_of_neg hc, List.dropWhile_cons_of_neg hc]
        rfl

/-- Whether a line feed ends the text. -/
def EndsInFeed (t : List Char) : Prop :=
  ['\n'] <:+ t

theorem EndsInFeed.of_suffix {t r : List Char} (h : EndsInFeed r) (hr : r <:+ t) : EndsInFeed t :=
  List.IsSuffix.trans h hr

theorem atEnd_iff {t : List Char} (h : ¬ EndsInFeed t) : atEnd t ↔ t = [] := by
  unfold atEnd
  constructor
  · intro hend
    rcases Bool.or_eq_true_iff.mp hend with hend | hend
    · simpa using hend
    · have : t = ['\n'] := by simpa using hend
      exact absurd (this ▸ List.suffix_rfl) h
  · rintro rfl
    rfl

/-! ### The message and the receiver -/

theorem messages_nil : messages [] = [none] := rfl

/-- In front of any other character than a colon there is no way to go on. -/
theorem messages_cons_of_ne {c : Char} {r : List Char} (hc : c ≠ ':')
    (h : ¬ EndsInFeed (c :: r)) : messages (c :: r) = [] := by
  have hend : ¬ atEnd (c :: r) := by simp [atEnd_iff h]
  unfold messages
  rw [if_neg hend]
  split
  · next heq => exact absurd (List.cons.inj heq).1 hc
  · rfl

/-- A message is all that is left, and then it has no line feed. -/
theorem head?_messages_colon {m : List Char} (h : ¬ EndsInFeed (':' :: m)) :
    (messages (':' :: m)).head? = if '\n' ∈ m then none else some (some m) := by
  have hend : ¬ atEnd (':' :: m) := by simp [atEnd_iff h]
  have hm : ¬ EndsInFeed m := fun hfeed => h (hfeed.of_suffix (List.suffix_cons ':' m))
  obtain ⟨others, heq, hothers⟩ := greedyRuns_eq_cons (· ≠ '\n') m
  -- a shorter way stops in front of a character, which is not the end
  have hshort : others.filter (fun w => atEnd w.2) = [] := by
    rw [List.filter_eq_nil_iff]
    intro w hw
    obtain ⟨hsuffix, c, rest, -, hrest⟩ := hothers w hw
    rw [atEnd_iff fun hfeed => hm (hfeed.of_suffix hsuffix), hrest]
    exact List.cons_ne_nil c rest
  have hdrop : ¬ EndsInFeed (m.dropWhile (· ≠ '\n')) := fun hfeed =>
    hm (hfeed.of_suffix (List.dropWhile_suffix _))
  show ((((greedyRuns (· ≠ '\n') m).filter fun w : List Char × List Char => atEnd w.2).map
      fun w : List Char × List Char => some w.1) ++
    if atEnd (':' :: m) then [none] else []).head? = _
  rw [if_neg hend, List.append_nil, heq, List.filter_cons, hshort]
  by_cases hfeed : '\n' ∈ m
  · have hne : ¬ atEnd (m.dropWhile (· ≠ '\n')) := by
      rw [atEnd_iff hdrop, List.dropWhile_eq_nil_iff]
      intro hall
      simpa using hall '\n' hfeed
    rw [if_pos hfeed, if_neg hne]
    rfl
  · have hall : ∀ c ∈ m, decide (c ≠ '\n') = true := by
      intro c hc
      simpa using fun hcc : c = '\n' => hfeed (hcc ▸ hc)
    have hend' : atEnd (m.dropWhile (· ≠ '\n')) := by
      rw [atEnd_iff hdrop, List.dropWhile_eq_nil_iff]
      exact hall
    rw [if_neg hfeed, if_pos hend', List.takeWhile_eq_self_iff.mpr hall]
    rfl

/-- The receiver and the message of a way; an omitted message is empty. -/
def withMessage (w : List Char × Option (List Char)) : List Char × List Char :=
  (w.1, w.2.getD [])

/-- The first way to read a receiver is the one up to the first colon. -/
theorem map_head?_receivers {r : List Char} (h : ¬ EndsInFeed r) :
    (receivers r).head?.map withMessage = cutMessage? r := by
  obtain ⟨others, heq, hothers⟩ := greedyRuns_eq_cons (· ≠ ':') r
  -- a shorter way leaves a character that is no colon, and nothing goes on there
  have hshort : (others.flatMap fun (receiver, rest) =>
      (messages rest).map fun message => (receiver, message)) = [] := by
    rw [List.flatMap_eq_nil_iff]
    rintro ⟨receiver, rest⟩ hw
    obtain ⟨hsuffix, c, rest', hc, hrest⟩ := hothers _ hw
    obtain rfl : rest = c :: rest' := hrest
    have hdead : messages (c :: rest') = [] :=
      messages_cons_of_ne (by simpa using hc) fun hfeed => h (hfeed.of_suffix hsuffix)
    simp only [hdead, List.map_nil]
  unfold receivers cutMessage?
  rw [heq, List.flatMap_cons, hshort, List.append_nil]
  have hdrop : r.dropWhile (· ≠ ':') <:+ r := List.dropWhile_suffix _
  rcases hr : r.dropWhile (· ≠ ':') with - | ⟨c, m⟩
  · have hall := List.takeWhile_eq_self_iff.mpr (List.dropWhile_eq_nil_iff.mp hr)
    simp only [messages_nil, hall]
    rfl
  · have hc : c = ':' := by
      have := List.head?_dropWhile_not (fun d => decide (d ≠ ':')) r
      rw [hr] at this
      simpa using this
    subst hc
    rw [hr] at hdrop
    have hmessages := head?_messages_colon fun hfeed => h (hfeed.of_suffix hdrop)
    rw [List.head?_map, hmessages]
    by_cases hfeed : '\n' ∈ m
    · simp [hfeed]
    · simp [hfeed, withMessage]

/-! ### The arrow -/

/-- What cannot be cut behind all heads of an arrow cannot be cut behind fewer. -/
theorem cutMessage?_dropWhile_gt {t : List Char}
    (h : cutMessage? (t.dropWhile (· = '>')) = none) : cutMessage? t = none := by
  induction t with
  | nil => exact h
  | cons c t ih =>
      by_cases hc : c = '>'
      · subst hc
        rw [List.dropWhile_cons_of_pos (by simp)] at h
        obtain ⟨hcolon, hfeed⟩ := cutMessage?_eq_none.mp (ih h)
        exact cutMessage?_eq_none.mpr ⟨List.mem_cons_of_mem _ hcolon, hfeed⟩
      · rw [List.dropWhile_cons_of_neg (by simpa using hc)] at h
        exact h

/-- Behind the first `>` it suffices to look past all that follow: if the
receiver cannot be read there, it cannot be read from an earlier `>` on. -/
theorem map_head?_behind_gt {t : List Char} (h : ¬ EndsInFeed t) :
    ((((greedyRuns (· = '>') t).map Prod.snd).flatMap receivers).head?).map withMessage =
      cutMessage? (t.dropWhile (· = '>')) := by
  induction t with
  | nil => rfl
  | cons c t ih =>
      have ht := ih fun hfeed => h (hfeed.of_suffix (List.suffix_cons c t))
      by_cases hc : c = '>'
      · have hways : (greedyRuns (· = '>') (c :: t)).map Prod.snd =
            (greedyRuns (· = '>') t).map Prod.snd ++ [c :: t] := by
          simp [greedyRuns, hc, Function.comp_def]
        rw [hways, List.flatMap_append, List.head?_append, List.dropWhile_cons_of_pos (by simpa)]
        rcases hhead : ((((greedyRuns (· = '>') t).map Prod.snd).flatMap receivers).head?) with
          - | w
        · rw [hhead] at ht
          -- nothing further on: the last resort is to read from here
          have hhere : cutMessage? (c :: t) = none := by
            refine cutMessage?_dropWhile_gt ?_
            rw [List.dropWhile_cons_of_pos (by simpa), ← ht]
            rfl
          rw [Option.none_or, List.flatMap_singleton, map_head?_receivers h, hhere, ← ht]
          rfl
        · rw [hhead] at ht
          rw [Option.some_or]
          exact ht
      · have hways : (greedyRuns (· = '>') (c :: t)).map Prod.snd = [c :: t] := by
          simp [greedyRuns, hc]
        rw [hways, List.flatMap_singleton, map_head?_receivers h,
          List.dropWhile_cons_of_neg (by simpa)]

theorem afterRuns_cons_of_ne {c d : Char} {t : List Char} (h : d ≠ c) :
    afterRuns c (d :: t) = [] := by
  rw [afterRuns, if_neg h]

/-- The first run has to be read as a whole, since a `>` must follow it. -/
theorem arrows_dash (t : List Char) :
    arrows ('-' :: t) = (afterRuns '>' (t.dropWhile (· = '-'))).flatMap receivers := by
  obtain ⟨others, heq, hothers⟩ := greedyRuns_eq_cons (· = '-') t
  have hshort : (others.flatMap fun w => (afterRuns '>' w.2).flatMap receivers) = [] := by
    rw [List.flatMap_eq_nil_iff]
    intro w hw
    obtain ⟨-, c, rest, hc, hrest⟩ := hothers w hw
    obtain rfl : c = '-' := by simpa using hc
    rw [hrest, afterRuns_cons_of_ne (by decide), List.flatMap_nil]
  unfold arrows
  rw [afterRuns, if_pos rfl, heq, List.flatMap_map, List.flatMap_cons, hshort, List.append_nil]

/-- The first way to read an arrow is the separator. -/
theorem map_head?_arrows {t : List Char} (h : ¬ EndsInFeed t) :
    (arrows t).head?.map withMessage = separator? t := by
  rcases t with - | ⟨c, t⟩
  · rfl
  · -- an arrow starts here only with a dash, and only if a `>` ends its run
    by_cases hc : c = '-'
    · subst hc
      have hdrop : t.dropWhile (· = '-') <:+ '-' :: t :=
        (List.dropWhile_suffix _).trans (List.suffix_cons '-' t)
      rw [arrows_dash, separator?]
      rcases hrun : t.dropWhile (· = '-') with - | ⟨d, rest⟩
      · rw [afterArrow?_dash, hrun]
        rfl
      · by_cases hd : d = '>'
        · subst hd
          rw [hrun] at hdrop
          have hrest : ¬ EndsInFeed rest := fun hfeed =>
            h (hfeed.of_suffix ((List.suffix_cons '>' rest).trans hdrop))
          rw [afterRuns, if_pos rfl, map_head?_behind_gt hrest, afterArrow?_dash, hrun]
          rfl
        · have hnone : afterArrow? ('-' :: t) = none := by
            rw [afterArrow?_dash, hrun]
            split
            · next heq => exact absurd (List.cons.inj heq).1 hd
            · rfl
          rw [afterRuns_cons_of_ne hd, hnone]
          rfl
    · rw [arrows, afterRuns_cons_of_ne hc, separator?, afterArrow?_cons_of_ne hc]
      rfl

/-! ### The whole pattern -/

/-- The parts of a match; an omitted message is empty. -/
def toParts (w : List Char × List Char × Option (List Char)) : Parts :=
  ⟨w.1, w.2.1, w.2.2.getD []⟩

/-- A match starts here or later, but not behind a line feed. -/
theorem allMatches_cons (c : Char) (t : List Char) :
    allMatches (c :: t) = ((arrows (c :: t)).map fun w => ([], w)) ++
      if c = '\n' then [] else (allMatches t).map fun w => (c :: w.1, w.2) := by
  unfold allMatches
  rw [lazyRuns, List.flatMap_cons]
  congr 1
  by_cases hc : c = '\n'
  · simp [hc]
  · simp [hc, List.flatMap_map, List.map_flatMap, Function.comp_def]

/-- **The first match of the pattern is the cut of the line**, for every text
that does not end in a line feed. -/
theorem map_firstMatch? {t : List Char} (h : ¬ EndsInFeed t) :
    (firstMatch? t).map toParts = parts? t := by
  unfold firstMatch?
  induction t with
  | nil => rfl
  | cons c t ih =>
      have ht := ih fun hfeed => h (hfeed.of_suffix (List.suffix_cons c t))
      have hhere := map_head?_arrows h
      rw [allMatches_cons, List.head?_append, List.head?_map, parts?, ← hhere]
      -- the lazy run goes on only if no arrow can be read here
      rcases (arrows (c :: t)).head? with - | w
      · by_cases hc : c = '\n'
        · simp [hc]
        · simp only [Option.map_none, Option.none_or, if_neg hc, List.head?_map, ← ht,
            Option.map_map]
          rfl
      · rfl

end SequenceChart.Line.Pattern
