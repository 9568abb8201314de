/-
SequenceChart/Proofs/Text/Terminal.lean

What is left of a text without its control sequences.

Nothing is added and nothing changes places (`plainChars_sublist`), and a text
stays as it is exactly if no control sequence starts in it
(`plainChars_eq_self_iff`).  One pass over a text can bring together the pieces
of a control sequence that it does not look at again, so plain is what the pass
gives and not what it would leave alone.
-/
import Mathlib.Data.List.Infix
import SequenceChart.Text.Terminal

namespace SequenceChart.Text

/-- Whether no control sequence starts anywhere in a text. -/
def ControlFree (s : List Char) : Prop :=
  ∀ t, t <:+ s → controlLength? t = none

instance (s : List Char) : Decidable (ControlFree s) :=
  decidable_of_iff (∀ t ∈ s.tails, controlLength? t = none) (by simp [ControlFree])

theorem controlFree_cons {c : Char} {s : List Char} :
    ControlFree (c :: s) ↔ controlLength? (c :: s) = none ∧ ControlFree s := by
  simp [ControlFree, List.suffix_cons_iff]

/-- A complete control sequence is one whatever follows it. -/
theorem controlLength?_append {s : List Char} {n : Nat} (h : controlLength? s = some n)
    (t : List Char) : controlLength? (s ++ t) = some n := by
  unfold controlLength? at h
  split at h
  · next rest =>
      split at h
      · cases h
      · next final later hfinal =>
          -- the sequence is complete, so its end is found at the same place
          have hdrop : (rest ++ t).dropWhile isParameter = final :: (later ++ t) := by
            rw [List.dropWhile_append, hfinal]
            rfl
          have htake : (rest ++ t).takeWhile isParameter = rest.takeWhile isParameter := by
            have hsplit := congrArg List.length
              (List.takeWhile_append_dropWhile (p := isParameter) (l := rest))
            rw [hfinal, List.length_append, List.length_cons] at hsplit
            rw [List.takeWhile_append, if_neg (by omega)]
          simp only [List.cons_append, controlLength?, hdrop, htake]
          exact h
  · cases h

/-- A text with a control sequence in it is not free of them. -/
theorem not_controlFree_of_infix {s t : List Char} {n : Nat} (h : controlLength? s = some n)
    (hpiece : s <:+: t) : ¬ ControlFree t := by
  obtain ⟨before, later, rfl⟩ := hpiece
  intro hfree
  have hsuffix : s ++ later <:+ before ++ s ++ later := ⟨before, by simp⟩
  have hnone := hfree _ hsuffix
  rw [controlLength?_append h] at hnone
  cases hnone

theorem plainFrom_sublist (skip : Nat) (s : List Char) : (plainFrom skip s).Sublist s := by
  induction s generalizing skip with
  | nil => simp [plainFrom]
  | cons c s ih =>
      cases skip with
      | succ skip => exact (ih skip).cons c
      | zero =>
          unfold plainFrom
          split
          · exact (ih _).cons c
          · exact (ih 0).cons_cons c

theorem plainChars_sublist (s : List Char) : (plainChars s).Sublist s :=
  plainFrom_sublist 0 s

/-- Exactly the texts without control sequences are left as they are. -/
theorem plainChars_eq_self_iff {s : List Char} : plainChars s = s ↔ ControlFree s := by
  induction s with
  | nil => simp [plainChars, plainFrom, ControlFree, controlLength?]
  | cons c s ih =>
      rw [controlFree_cons, ← ih, plainChars, plainFrom]
      rcases hlength : controlLength? (c :: s) with - | length
      · simp [plainChars]
      · -- the control sequence is gone, so the rest is too short
        have hshort := (plainFrom_sublist (length - 1) s).length_le
        simp only [reduceCtorEq, false_and, iff_false]
        intro h
        rw [h, List.length_cons] at hshort
        omega

/-- A text without escape characters stays, whatever follows it. -/
theorem plainChars_append {p : List Char} (hp : '\x1b' ∉ p) (s : List Char) :
    plainChars (p ++ s) = p ++ plainChars s := by
  induction p with
  | nil => rfl
  | cons c p ih =>
      have hc : c ≠ '\x1b' := fun he => hp (by simp [he])
      have hp' : plainChars (p ++ s) = p ++ plainChars s := ih fun hm => hp (by simp [hm])
      rw [List.cons_append, plainChars, plainFrom, controlLength?_cons_of_ne hc]
      exact congrArg (c :: ·) hp'

/-- What stands before the first escape character is kept. -/
theorem plain_append {p : String} (hp : '\x1b' ∉ p.toList) (s : String) :
    plain (p ++ s) = p ++ plain s := by
  rw [plain, String.toList_append, plainChars_append hp, String.ofList_append,
    String.ofList_toList]
  rfl

/-- Exactly the texts without control sequences are printed as they are. -/
theorem plain_eq_self_iff {s : String} : plain s = s ↔ ControlFree s.toList := by
  rw [← plainChars_eq_self_iff, ← String.toList_inj, plain, String.toList_ofList]

end SequenceChart.Text
