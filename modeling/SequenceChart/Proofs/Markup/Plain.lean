/-
SequenceChart/Proofs/Markup/Plain.lean

Texts that need no escaping.

A drawing writes numbers and web addresses without escaping them.  Both are
made of characters that start and end no tag, whatever the number or the
encoded text is.
-/
import SequenceChart.Proofs.Markup.Escape
import SequenceChart.Proofs.Number.Notation
import SequenceChart.Text.Percent

namespace SequenceChart

open Markup

namespace Markup

theorem Plain.toList_append {s t : String} (hs : Plain s.toList) (ht : Plain t.toList) :
    Plain (s ++ t).toList := by
  rw [String.toList_append]
  exact plain_append.mpr ⟨hs, ht⟩

theorem plain_of_isAlphanum {c : Char} (h : c.isAlphanum) : c ≠ '<' ∧ c ≠ '>' := by
  constructor <;> rintro rfl <;> exact absurd h (by decide)

end Markup

/-! ### Numbers -/

theorem Number.plain_of_isNumberChar {c : Char} (h : isNumberChar c) : c ≠ '<' ∧ c ≠ '>' := by
  constructor <;> rintro rfl <;> exact absurd h (by decide)

theorem Quantity.plain_text (q : Quantity) : Plain q.text.toList :=
  fun c hc => Number.plain_of_isNumberChar (q.numeric_text c hc)

/-! ### Web addresses -/

namespace Text

theorem plain_hexDigit (n : Nat) (h : n < 16) :
    (hexDigit n).toUpper ≠ '<' ∧ (hexDigit n).toUpper ≠ '>' := by
  revert n
  decide

theorem plain_hexDigits (width n : Nat) : Plain ((hexDigits width n).map Char.toUpper) := by
  induction width generalizing n with
  | zero => exact plain_nil
  | succ width ih =>
      rw [hexDigits, List.map_append, plain_append]
      refine ⟨ih (n / 16), ?_⟩
      have hdigit := plain_hexDigit (n % 16) (Nat.mod_lt n (by decide))
      simp [hdigit]

/-- An address has no character that starts or ends a tag. -/
theorem plain_percentChar (c : Char) : Plain (percentChar c) := by
  unfold percentChar
  split
  · next hsafe =>
      rw [plain_cons]
      refine ⟨?_, plain_nil⟩
      -- what is safe in an address is a letter, a digit or one of five marks
      rcases Bool.or_eq_true_iff.mp hsafe with halnum | hmark
      · exact plain_of_isAlphanum halnum
      · have hmark' : c ∈ ['_', '.', '-', '~', '/'] := by simpa using hmark
        constructor <;> rintro rfl <;> exact absurd hmark' (by decide)
  · intro d hd
    obtain ⟨b, -, hd⟩ := List.mem_flatMap.mp hd
    have hbyte : Plain (percentByte b) := plain_cons.mpr ⟨by decide, plain_hexDigits 2 b.toNat⟩
    exact hbyte d hd

/-- A part of an address is plain. -/
theorem plain_percentEncode (s : String) : Plain (percentEncode s).toList := by
  rw [percentEncode, String.toList_ofList]
  intro d hd
  obtain ⟨c, -, hd⟩ := List.mem_flatMap.mp hd
  exact plain_percentChar c d hd

end Text

end SequenceChart
