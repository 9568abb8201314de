/-
SequenceChart/Proofs/Text/Trim.lean

Trimming: what is left between the outer blanks.

`Trimmed s` says that no blank stands at either end of `s`.  Trimming gives
such a text (`trimmed_trimChars`), and gives it back from between any blanks
that are put around it (`trimChars_padded`).  What it gives is a connected piece
of the text, so it brings in no character and no word that was not there
(`trimChars_isInfix`).
-/
import Mathlib.Data.List.Infix
import Mathlib.Data.List.TakeWhile
import SequenceChart.Text.Blank

namespace SequenceChart.Text

/-- Whether no blank stands at either end of a text. -/
structure Trimmed (s : List Char) : Prop where
  head : ∀ c ∈ s.head?, ¬ isBlank c
  last : ∀ c ∈ s.getLast?, ¬ isBlank c

variable {p q s : List Char}

instance (s : List Char) : Decidable (Trimmed s) :=
  decidable_of_iff (s.head?.all (! isBlank ·) ∧ s.getLast?.all (! isBlank ·)) <| by
    have hall : ∀ o : Option Char, o.all (! isBlank ·) = true ↔ ∀ c ∈ o, ¬ isBlank c := by
      rintro (- | c) <;> simp
    rw [hall, hall]
    exact ⟨fun h => ⟨h.1, h.2⟩, fun h => ⟨h.head, h.last⟩⟩

/-- Two pieces of text that are solid at the outer ends make up a trimmed one. -/
theorem Trimmed.append {t : List Char} (hs : Trimmed s) (hne : s ≠ []) (ht : t ≠ [])
    (hlast : ∀ c ∈ t.getLast?, ¬ isBlank c) : Trimmed (s ++ t) where
  head := by
    rw [List.head?_append_of_ne_nil _ hne]
    exact hs.head
  last := by
    rw [List.getLast?_append_of_ne_nil _ ht]
    exact hlast

/-! ### A single end -/

theorem trimLeft_blanks_append (hp : ∀ c ∈ p, isBlank c) (s : List Char) :
    trimLeft (p ++ s) = trimLeft s :=
  List.dropWhile_append_of_pos hp

theorem trimRight_append_blanks (hq : ∀ c ∈ q, isBlank c) (s : List Char) :
    trimRight (s ++ q) = trimRight s := by
  unfold trimRight
  rw [List.reverse_append, List.dropWhile_append_of_pos fun c hc => hq c (List.mem_reverse.mp hc)]

theorem trimLeft_eq_self (h : ∀ c ∈ s.head?, ¬ isBlank c) : trimLeft s = s := by
  rcases s with - | ⟨c, s⟩
  · rfl
  · exact List.dropWhile_cons_of_neg (h c rfl)

theorem trimRight_eq_self (h : ∀ c ∈ s.getLast?, ¬ isBlank c) : trimRight s = s := by
  have hrev : trimLeft s.reverse = s.reverse := trimLeft_eq_self (by rwa [List.head?_reverse])
  show (trimLeft s.reverse).reverse = s
  rw [hrev, List.reverse_reverse]

/-- What is dropped from the right are blanks. -/
theorem exists_trimRight_append (s : List Char) :
    ∃ q, (∀ c ∈ q, isBlank c) ∧ trimRight s ++ q = s := by
  refine ⟨(s.reverse.takeWhile isBlank).reverse, fun c hc => ?_, ?_⟩
  · exact List.mem_takeWhile_imp (List.mem_reverse.mp hc)
  · rw [trimRight, ← List.reverse_append, List.takeWhile_append_dropWhile, List.reverse_reverse]

theorem head?_trimLeft (s : List Char) : ∀ c ∈ (trimLeft s).head?, ¬ isBlank c := by
  intro c hc
  have h := List.head?_dropWhile_not isBlank s
  rw [Option.mem_def] at hc
  simp only [trimLeft] at hc
  rw [hc] at h
  simpa using h

theorem getLast?_trimRight (s : List Char) : ∀ c ∈ (trimRight s).getLast?, ¬ isBlank c := by
  show ∀ c ∈ (trimLeft s.reverse).reverse.getLast?, ¬ isBlank c
  rw [List.getLast?_reverse]
  exact head?_trimLeft s.reverse

theorem trimRight_prefix_self (s : List Char) : trimRight s <+: s := by
  have h : trimLeft s.reverse <:+ s.reverse := List.dropWhile_suffix _
  have h' := List.reverse_prefix.mpr h
  rwa [List.reverse_reverse] at h'

/-- A solid text and what follows it, up to the last character that is not
blank, are trimmed. -/
theorem trimmed_append_trimRight {k : List Char} (hne : k ≠ []) (hk : ∀ c ∈ k, ¬ isBlank c)
    (s : List Char) : Trimmed (k ++ trimRight s) where
  head := by
    rw [List.head?_append_of_ne_nil _ hne]
    exact fun c hc => hk c (List.mem_of_mem_head? hc)
  last := by
    intro c hc
    by_cases hnil : trimRight s = []
    · rw [hnil, List.append_nil] at hc
      exact hk c (List.mem_of_getLast? hc)
    · rw [List.getLast?_append_of_ne_nil _ hnil] at hc
      exact getLast?_trimRight s c hc

/-- Only trailing blanks are dropped from the right, so the head stays. -/
theorem head?_trimRight {c : Char} (hc : ¬ isBlank c) (h : s.head? = some c) :
    (trimRight s).head? = some c := by
  obtain ⟨s, rfl⟩ := List.head?_eq_some_iff.mp h
  have hsplit : trimRight (c :: s) <+: c :: s := trimRight_prefix_self _
  rcases htrim : trimRight (c :: s) with - | ⟨d, rest⟩
  · -- then all characters would be blank, the first one too
    have hnil : (c :: s).reverse.dropWhile isBlank = [] := by
      simpa [trimRight] using htrim
    exact absurd (List.dropWhile_eq_nil_iff.mp hnil c (by simp)) hc
  · rw [htrim, List.cons_prefix_cons] at hsplit
    rw [hsplit.1]
    rfl

/-! ### Both ends -/

/-- What is left after trimming is a connected piece of the text. -/
theorem trimChars_isInfix (s : List Char) : trimChars s <:+: s :=
  (trimRight_prefix_self _).isInfix.trans (List.dropWhile_suffix _).isInfix

theorem trimmed_trimChars (s : List Char) : Trimmed (trimChars s) where
  head := by
    intro c hc
    rcases hleft : (trimLeft s).head? with - | d
    · rw [List.head?_eq_none_iff] at hleft
      simp [trimChars, hleft, trimRight] at hc
    · have hd := head?_trimLeft s d hleft
      have hhead : (trimChars s).head? = some d := head?_trimRight hd hleft
      obtain rfl : d = c := Option.some.inj (hhead.symm.trans hc)
      exact hd
  last := getLast?_trimRight _

theorem trimChars_blanks_append (hp : ∀ c ∈ p, isBlank c) (s : List Char) :
    trimChars (p ++ s) = trimChars s := by
  rw [trimChars, trimLeft_blanks_append hp, trimChars]

theorem trimChars_append_blanks (hq : ∀ c ∈ q, isBlank c) (s : List Char) :
    trimChars (s ++ q) = trimChars s := by
  unfold trimChars trimLeft
  rw [List.dropWhile_append]
  split
  · rename_i hblank
    rw [List.dropWhile_eq_nil_iff.mpr hq, List.isEmpty_iff.mp hblank]
  · exact trimRight_append_blanks hq _

/-- Blanks around a text make no difference. -/
theorem trimChars_padded (hp : ∀ c ∈ p, isBlank c) (hq : ∀ c ∈ q, isBlank c) (hs : Trimmed s) :
    trimChars (p ++ s ++ q) = s := by
  rw [trimChars, List.append_assoc, trimLeft_blanks_append hp]
  -- the text itself keeps what follows it from being trimmed away
  rcases s with - | ⟨c, s⟩
  · rw [List.nil_append, trimLeft, List.dropWhile_eq_nil_iff.mpr hq]
    rfl
  · have hhead : ∀ d ∈ (c :: s ++ q).head?, ¬ isBlank d := hs.head
    rw [trimLeft_eq_self hhead, trimRight_append_blanks hq, trimRight_eq_self hs.last]

/-- To trim twice is to trim once. -/
theorem trimChars_trimChars (s : List Char) : trimChars (trimChars s) = trimChars s := by
  have h := trimChars_padded (p := []) (q := []) (by simp) (by simp) (trimmed_trimChars s)
  rwa [List.nil_append, List.append_nil] at h

theorem trimChars_ne_nil (h : ∃ c ∈ s, ¬ isBlank c) : trimChars s ≠ [] := by
  obtain ⟨c, hc, hsolid⟩ := h
  intro hnil
  obtain ⟨q, hq, happend⟩ := exists_trimRight_append (trimLeft s)
  rw [trimChars] at hnil
  rw [hnil, List.nil_append] at happend
  -- a solid character is not dropped from the left either
  have hmem : c ∈ trimLeft s := by
    have hsplit := List.takeWhile_append_dropWhile (p := isBlank) (l := s)
    rw [← hsplit, List.mem_append] at hc
    rcases hc with hc | hc
    · exact absurd (List.mem_takeWhile_imp hc) hsolid
    · exact hc
  exact hsolid (hq c (happend ▸ hmem))

/-- A text that starts with a solid character starts so after trimming. -/
theorem head?_trimChars {c : Char} (hc : ¬ isBlank c) (h : s.head? = some c) :
    (trimChars s).head? = some c := by
  have hself : trimLeft s = s := by
    refine trimLeft_eq_self fun d hd => ?_
    obtain rfl : c = d := Option.some.inj (h.symm.trans hd)
    exact hc
  unfold trimChars
  rw [hself]
  exact head?_trimRight hc h

end SequenceChart.Text
