/-
SequenceChart/Proofs/Number/Notation.lean

The characters that numbers are written with.

However a number is laid out, its text has digits, signs, points, the letter of
an exponent and the letters of `inf` and `nan`, and nothing else
(`Quantity.numeric_text`).  What a drawing may write without looking at it
follows from this class alone.
-/
import Mathlib.Data.List.Basic
import SequenceChart.Quantity

namespace SequenceChart

namespace Number

/-- Whether numbers are written with the character. -/
def isNumberChar (c : Char) : Bool :=
  c.isDigit || ['-', '+', '.', 'e', 'i', 'n', 'f', 'a'].contains c

/-- Whether the text is made of characters that numbers are written with. -/
def Numeric (s : List Char) : Prop :=
  ∀ c ∈ s, isNumberChar c

instance (s : List Char) : Decidable (Numeric s) :=
  List.decidableBAll (fun c => isNumberChar c = true) s

@[simp] theorem numeric_nil : Numeric [] := by
  simp [Numeric]

@[simp] theorem numeric_cons {c : Char} {s : List Char} :
    Numeric (c :: s) ↔ isNumberChar c ∧ Numeric s :=
  List.forall_mem_cons

@[simp] theorem numeric_append {s t : List Char} : Numeric (s ++ t) ↔ Numeric s ∧ Numeric t :=
  List.forall_mem_append

theorem Numeric.of_subset {s t : List Char} (hs : Numeric s) (h : t ⊆ s) : Numeric t :=
  fun c hc => hs c (h hc)

/-! ### Digits and their layout -/

theorem numeric_toDigits (n : Nat) : Numeric (Nat.toDigits 10 n) := by
  intro c hc
  have hdigit : c.isDigit := Nat.isDigit_of_mem_toDigits (by decide) (by decide) hc
  simp [isNumberChar, hdigit]

theorem numeric_zeros (n : Nat) : Numeric (List.replicate n '0') := by
  intro c hc
  rw [List.eq_of_mem_replicate hc]
  decide

theorem numeric_integerText (n : Int) : Numeric (integerText n) := by
  unfold integerText
  dsimp only
  split
  · exact numeric_cons.mpr ⟨by decide, numeric_toDigits _⟩
  · exact numeric_toDigits _

section

variable {digits : List Char} (h : Numeric digits) (lead : Int)
include h

theorem numeric_positional : Numeric (positional digits lead) := by
  have hzero : isNumberChar '0' := by decide
  have hpoint : isNumberChar '.' := by decide
  have htake : ∀ n, Numeric (digits.take n) := fun n => h.of_subset (List.take_subset n digits)
  have hdrop : ∀ n, Numeric (digits.drop n) := fun n => h.of_subset (List.drop_subset n digits)
  unfold positional
  split
  · simp [numeric_zeros, hzero, hpoint, h]
  · dsimp only
    split
    · simp [numeric_zeros, hzero, hpoint, htake]
    · simp [numeric_zeros, hpoint, htake, hdrop]

/-- The notation with an exponent has the characters of a number. -/
theorem numeric_scientific : Numeric (scientific digits lead) := by
  have htake : Numeric (digits.take 1) := h.of_subset (List.take_subset 1 digits)
  have hdrop : Numeric (digits.drop 1) := h.of_subset (List.drop_subset 1 digits)
  -- the point stands behind the first digit, if there is more than one
  have hmantissa : Numeric
      (digits.take 1 ++ if digits.length ≤ 1 then [] else '.' :: digits.drop 1) := by
    rw [numeric_append]
    refine ⟨htake, ?_⟩
    split
    · exact numeric_nil
    · exact numeric_cons.mpr ⟨by decide, hdrop⟩
  unfold scientific
  dsimp only
  refine numeric_append.mpr ⟨hmantissa, numeric_cons.mpr ⟨by decide, numeric_cons.mpr ⟨?_, ?_⟩⟩⟩
  · split <;> decide
  · exact numeric_append.mpr ⟨numeric_zeros _, numeric_toDigits _⟩

end

theorem Decimal.numeric_text (d : Decimal) : Numeric d.text := by
  have hdigits : Numeric (dropTrailingZeros (Nat.toDigits 10 d.digits)) := by
    refine (numeric_toDigits d.digits).of_subset fun c hc => ?_
    rw [dropTrailingZeros, List.mem_reverse] at hc
    exact List.mem_reverse.mp ((List.dropWhile_sublist _).subset hc)
  unfold Decimal.text
  dsimp only
  split
  · exact numeric_positional hdigits _
  · exact numeric_scientific hdigits _

/-! ### Binary64 numbers -/

theorem numeric_magnitudeText (x : Float) : Numeric (magnitudeText x) := by
  unfold magnitudeText
  split
  · dsimp only
    split
    · decide
    · exact Decimal.numeric_text _
  · decide

/-- A binary64 number is printed in the characters of a number. -/
theorem numeric_floatText (x : Float) : Numeric (floatText x) := by
  unfold floatText
  split
  · decide
  · split
    · exact numeric_cons.mpr ⟨by decide, numeric_magnitudeText x⟩
    · exact numeric_magnitudeText x

end Number

theorem Quantity.numeric_text (q : Quantity) : Number.Numeric q.text.toList := by
  rcases q with n | x
  · simpa [text] using Number.numeric_integerText n
  · simpa [text] using Number.numeric_floatText x

/-- A character of another class is in no number. -/
theorem Quantity.not_mem_text {c : Char} (h : Number.isNumberChar c = false) (q : Quantity) :
    c ∉ q.text.toList :=
  fun hmem => Bool.false_ne_true (h.symm.trans (q.numeric_text c hmem))

end SequenceChart
