/-
SequenceChart/Proofs/Line/Separator.lean

Where a line is separated.

A position separates a line when an arrow starts there, no line feed stands
before it, and none stands behind the first colon after the arrow.  Here this
is said of positions, with the text before, inside and after the arrow spelled
out; the search that reads a line from left to right finds the least of them
(`parts?_eq_some_iff`), and gives up only where there is none
(`parts?_eq_none_iff`).
-/
import Mathlib.Data.List.TakeWhile
import Mathlib.Data.Nat.Find
import Mathlib.Data.Set.Basic
import Mathlib.Order.Bounds.Defs
import SequenceChart.Line.Classify

namespace SequenceChart.Line

/-! ### Positions -/

/-- What stands before the first colon, or all of the text. -/
def beforeColon (r : List Char) : List Char :=
  r.takeWhile (· ≠ ':')

/-- What stands behind the first colon, if there is one. -/
def afterColon (r : List Char) : List Char :=
  (r.dropWhile (· ≠ ':')).tail

/-- An arrow starts the text `t` and leaves `r`.  Neither of its two runs can
be made longer. -/
def IsArrow (t r : List Char) : Prop :=
  ∃ a b, t = List.replicate (a + 1) '-' ++ (List.replicate (b + 1) '>' ++ r) ∧
    r.head? ≠ some '>'

/-- Position `i` separates the line `t`, and `r` is what follows the arrow. -/
structure IsSeparator (t : List Char) (i : Nat) (r : List Char) : Prop where
  before : '\n' ∉ t.take i
  arrow : IsArrow (t.drop i) r
  after : ':' ∉ r ∨ '\n' ∉ afterColon r

/-- The positions that separate a line. -/
def separators (t : List Char) : Set Nat :=
  {i | ∃ r, IsSeparator t i r}

/-! ### Runs -/

theorem dropWhile_replicate_append {c : Char} (n : Nat) {r : List Char} (h : r.head? ≠ some c) :
    (List.replicate n c ++ r).dropWhile (· = c) = r := by
  induction n with
  | zero =>
      rcases r with - | ⟨d, r⟩
      · rfl
      · have hd : d ≠ c := by simpa using h
        show List.dropWhile (· = c) (d :: r) = d :: r
        rw [List.dropWhile_cons_of_neg (by simpa using hd)]
  | succ n ih =>
      rw [List.replicate_succ, List.cons_append, List.dropWhile_cons_of_pos (by simp)]
      exact ih

/-- A text is a run of a character and what cannot prolong it. -/
theorem exists_eq_replicate_append (c : Char) (t : List Char) :
    ∃ n, t = List.replicate n c ++ t.dropWhile (· = c) ∧
      (t.dropWhile (· = c)).head? ≠ some c := by
  induction t with
  | nil => exact ⟨0, rfl, by simp⟩
  | cons d t ih =>
      by_cases hd : d = c
      · subst hd
        obtain ⟨n, ht, hhead⟩ := ih
        rw [List.dropWhile_cons_of_pos (by simp)]
        refine ⟨n + 1, ?_, hhead⟩
        rw [List.replicate_succ, List.cons_append, ← ht]
      · rw [List.dropWhile_cons_of_neg (by simpa using hd)]
        exact ⟨0, rfl, by simpa using hd⟩

theorem afterArrow?_dash (t : List Char) :
    afterArrow? ('-' :: t) =
      match t.dropWhile (· = '-') with
      | '>' :: rest => some (rest.dropWhile (· = '>'))
      | _ => none := by
  have hdash : ('-' :: t).dropWhile (· = '-') = t.dropWhile (· = '-') :=
    List.dropWhile_cons_of_pos (by simp)
  unfold afterArrow?
  rw [hdash]
  rcases t.dropWhile (· = '-') with - | ⟨d, rest⟩
  · rfl
  · by_cases hd : d = '>'
    · subst hd
      rfl
    · simp [hd]

theorem afterArrow?_cons_of_ne {c : Char} {t : List Char} (h : c ≠ '-') :
    afterArrow? (c :: t) = none := by
  unfold afterArrow?
  split
  · next heq _ => exact absurd (List.cons.inj heq).1 h
  · rfl

/-- The arrow is read with all of its dashes and heads. -/
theorem afterArrow?_eq_some {t r : List Char} : afterArrow? t = some r ↔ IsArrow t r := by
  constructor
  · intro h
    unfold afterArrow? at h
    split at h
    · next t' rest hrest =>
        obtain ⟨n, ht, -⟩ := exists_eq_replicate_append '-' ('-' :: t')
        obtain ⟨b, hr, hhead⟩ := exists_eq_replicate_append '>' rest
        rw [Option.some.inj h] at hr hhead
        rw [hrest] at ht
        -- the first run is not empty, for the text does not start with `>`
        rcases n with - | a
        · simp at ht
        · refine ⟨a, b, ?_, hhead⟩
          rw [ht, hr, List.replicate_succ (n := b), List.cons_append]
    · cases h
  · rintro ⟨a, b, rfl, hhead⟩
    have hdash : (List.replicate (a + 1) '-' ++ (List.replicate (b + 1) '>' ++ r)).dropWhile
        (· = '-') = '>' :: (List.replicate b '>' ++ r) := by
      rw [dropWhile_replicate_append _ (by simp [List.replicate_succ])]
      rfl
    have hgt := dropWhile_replicate_append b hhead
    unfold afterArrow?
    rw [hdash, List.replicate_succ, List.cons_append]
    show some (List.dropWhile (· = '>') (List.replicate b '>' ++ r)) = some r
    rw [hgt]

/-- What follows an arrow is cut at its first colon. -/
theorem cutMessage?_eq_some {r receiver message : List Char} :
    cutMessage? r = some (receiver, message) ↔
      (':' ∉ r ∨ '\n' ∉ afterColon r) ∧ receiver = beforeColon r ∧ message = afterColon r := by
  unfold cutMessage? afterColon beforeColon
  -- without a colon the receiver is all of the text
  rcases h : r.dropWhile (· ≠ ':') with - | ⟨c, m⟩
  · have hall : ∀ c ∈ r, c ≠ ':' := by simpa using List.dropWhile_eq_nil_iff.mp h
    have hself : r.takeWhile (· ≠ ':') = r := by
      rw [List.takeWhile_eq_self_iff]
      simpa using hall
    rw [hself]
    simp [eq_comm]
  · have hcolon : ':' ∈ r := by
      by_contra hno
      have : r.dropWhile (· ≠ ':') = [] := by
        rw [List.dropWhile_eq_nil_iff]
        intro c hc
        simpa using fun hcc : c = ':' => hno (hcc ▸ hc)
      rw [h] at this
      cases this
    by_cases hm : '\n' ∈ m
    · simp [hm, hcolon]
    · simp [hm, eq_comm]

/-- A message does not go beyond a line feed. -/
theorem cutMessage?_eq_none {r : List Char} :
    cutMessage? r = none ↔ ':' ∈ r ∧ '\n' ∈ afterColon r := by
  rcases h : cutMessage? r with - | ⟨receiver, message⟩
  · simp only [true_iff]
    by_contra hno
    have := (cutMessage?_eq_some (r := r)).mpr ⟨not_and_or.mp hno, rfl, rfl⟩
    rw [h] at this
    cases this
  · have := (cutMessage?_eq_some.mp h).1
    simp only [reduceCtorEq, false_iff]
    exact not_and_or.mpr this

/-- Whether a line is separated where it starts. -/
theorem separator?_eq_some {t receiver message : List Char} :
    separator? t = some (receiver, message) ↔
      ∃ r, IsSeparator t 0 r ∧ receiver = beforeColon r ∧ message = afterColon r := by
  simp only [separator?, Option.bind_eq_some_iff, afterArrow?_eq_some, cutMessage?_eq_some]
  constructor
  · rintro ⟨r, harrow, hafter, hreceiver, hmessage⟩
    exact ⟨r, ⟨by simp, harrow, hafter⟩, hreceiver, hmessage⟩
  · rintro ⟨r, hsep, hreceiver, hmessage⟩
    exact ⟨r, hsep.arrow, hsep.after, hreceiver, hmessage⟩

/-- No separator is found exactly if there is none. -/
theorem separator?_eq_none {t : List Char} :
    separator? t = none ↔ ∀ r, ¬ IsSeparator t 0 r := by
  rcases h : separator? t with - | ⟨receiver, message⟩
  · simp only [true_iff]
    intro r hr
    have := separator?_eq_some.mpr ⟨r, hr, rfl, rfl⟩
    rw [h] at this
    cases this
  · obtain ⟨r, hr, -, -⟩ := separator?_eq_some.mp h
    simp only [reduceCtorEq, false_iff, not_forall, not_not]
    exact ⟨r, hr⟩

/-! ### The least position -/

theorem isSeparator_cons_succ {c : Char} {t : List Char} {i : Nat} {r : List Char} :
    IsSeparator (c :: t) (i + 1) r ↔ c ≠ '\n' ∧ IsSeparator t i r := by
  constructor
  · intro h
    have hbefore := h.before
    rw [List.take_succ_cons, List.mem_cons, not_or] at hbefore
    exact ⟨fun hc => hbefore.1 hc.symm, hbefore.2, h.arrow, h.after⟩
  · rintro ⟨hc, h⟩
    refine ⟨?_, h.arrow, h.after⟩
    rw [List.take_succ_cons, List.mem_cons, not_or]
    exact ⟨fun hcc => hc hcc.symm, h.before⟩

theorem not_isSeparator_nil {i : Nat} {r : List Char} : ¬ IsSeparator [] i r := by
  intro h
  obtain ⟨a, b, ht, -⟩ := h.arrow
  simp [List.replicate_succ] at ht

/-- The text is cut at the least separator. -/
theorem parts?_eq_of_isLeast {t : List Char} {i : Nat} {r : List Char} (h : IsSeparator t i r)
    (hleast : ∀ j ∈ separators t, i ≤ j) :
    parts? t = some ⟨t.take i, beforeColon r, afterColon r⟩ := by
  -- on the position: the search drops one character for each step towards it
  induction i generalizing t with
  | zero =>
      rcases t with - | ⟨c, t⟩
      · exact absurd h not_isSeparator_nil
      · have hsep := separator?_eq_some.mpr ⟨r, h, rfl, rfl⟩
        rw [parts?, hsep]
        rfl
  | succ i ih =>
      rcases t with - | ⟨c, t⟩
      · exact absurd h not_isSeparator_nil
      · obtain ⟨hc, h⟩ := isSeparator_cons_succ.mp h
        have hhere : separator? (c :: t) = none := by
          rw [separator?_eq_none]
          intro r' hr'
          have := hleast 0 ⟨r', hr'⟩
          omega
        have hrest : parts? t = some ⟨t.take i, beforeColon r, afterColon r⟩ := by
          refine ih h fun j hj => ?_
          obtain ⟨r', hr'⟩ := hj
          have := hleast (j + 1) ⟨r', isSeparator_cons_succ.mpr ⟨hc, hr'⟩⟩
          omega
        rw [parts?, hhere]
        simp only [if_neg hc, hrest, Option.map_some, List.take_succ_cons]

theorem parts?_eq_none_of_forall {t : List Char} (h : ∀ i r, ¬ IsSeparator t i r) :
    parts? t = none := by
  induction t with
  | nil => rfl
  | cons c t ih =>
      have hhere : separator? (c :: t) = none := separator?_eq_none.mpr (h 0)
      rw [parts?, hhere]
      by_cases hc : c = '\n'
      · simp only [if_pos hc]
      · have hrest : parts? t = none :=
          ih fun i r hr => h (i + 1) r (isSeparator_cons_succ.mpr ⟨hc, hr⟩)
        simp only [if_neg hc, hrest, Option.map_none]

/-- Where some position separates a line, one is the least. -/
theorem exists_isLeast_separators {t : List Char} (h : (separators t).Nonempty) :
    ∃ i, IsLeast (separators t) i := by
  classical
  refine ⟨Nat.find h, Nat.find_spec h, fun j hj => Nat.find_min' h hj⟩

/-- **A line is cut at the least position that separates it.** -/
theorem parts?_eq_some_iff {t : List Char} {parts : Parts} :
    parts? t = some parts ↔
      ∃ i r, IsLeast (separators t) i ∧ IsSeparator t i r ∧
        parts = ⟨t.take i, beforeColon r, afterColon r⟩ := by
  constructor
  · intro h
    by_cases hne : (separators t).Nonempty
    · obtain ⟨i, hi⟩ := exists_isLeast_separators hne
      obtain ⟨r, hr⟩ := hi.1
      rw [parts?_eq_of_isLeast hr fun j hj => hi.2 hj] at h
      exact ⟨i, r, hi, hr, (Option.some.inj h).symm⟩
    · rw [parts?_eq_none_of_forall fun i r hr => hne ⟨i, r, hr⟩] at h
      cases h
  · rintro ⟨i, r, hi, hr, rfl⟩
    exact parts?_eq_of_isLeast hr fun j hj => hi.2 hj

/-- A line cannot be cut exactly if it has no separator. -/
theorem parts?_eq_none_iff {t : List Char} : parts? t = none ↔ separators t = ∅ := by
  constructor
  · intro h
    -- if there is a separator, the line is cut at the least one
    by_contra hne
    obtain ⟨i, hi⟩ := exists_isLeast_separators (Set.nonempty_iff_ne_empty.mpr hne)
    obtain ⟨r, hr⟩ := hi.1
    rw [parts?_eq_of_isLeast hr fun j hj => hi.2 hj] at h
    cases h
  · intro h
    refine parts?_eq_none_of_forall fun i r hr => ?_
    have : i ∈ separators t := ⟨r, hr⟩
    rw [h] at this
    exact this

end SequenceChart.Line
