/-
SequenceChart/Proofs/Number/Rounding.lean

Rounding to an integer.

A number is rounded to the integer that is nearest to it, and where two
integers are equally near, to the even one of them.  This determines the
result (`IsNearestEven.unique`), so it may stand for the function that is
calculated (`roundHalfEven_eq_iff`).
-/
import Mathlib.Algebra.Order.Ring.Rat
import Mathlib.Algebra.Order.AbsoluteValue.Basic
import Mathlib.Tactic.Linarith
import Mathlib.Tactic.NormNum
import Mathlib.Tactic.Ring
import Mathlib.Tactic.SplitIfs
import Mathlib.Tactic.WLOG
import SequenceChart.Number.Binary

namespace SequenceChart.Number

/-- The integer `n` is at most one half away from `q`, and even if it is just as
far, so that its neighbour on the other side of `q` is not nearer. -/
structure IsNearestEven (q : Rat) (n : Int) : Prop where
  near : |q - n| ≤ 1 / 2
  even : |q - n| = 1 / 2 → n % 2 = 0

/-- Rounding gives a nearest integer, and the even one of two. -/
theorem isNearestEven_roundHalfEven (q : Rat) : IsNearestEven q (roundHalfEven q) := by
  have hlow := Rat.floor_le q
  have hhigh := Rat.lt_floor_add_one q
  push_cast at hhigh
  -- the distances to the two neighbours
  have hbelow : |q - q.floor| = q - q.floor := abs_of_nonneg (by linarith)
  have habove : |q - (q.floor + 1 : Int)| = q.floor + 1 - q := by
    push_cast
    rw [abs_of_neg (by linarith)]
    ring
  unfold roundHalfEven
  dsimp only
  split_ifs with hless hmore heven
  · exact ⟨by rw [hbelow]; linarith, fun h => absurd (hbelow ▸ h) (by linarith)⟩
  · exact ⟨by rw [habove]; linarith, fun h => absurd (habove ▸ h) (by linarith)⟩
  · exact ⟨by rw [hbelow]; linarith, fun _ => heven⟩
  · exact ⟨by rw [habove]; linarith, fun _ => by omega⟩

/-- There is one such integer. -/
theorem IsNearestEven.unique {q : Rat} {m n : Int} (hm : IsNearestEven q m)
    (hn : IsNearestEven q n) : m = n := by
  wlog hle : m ≤ n generalizing m n
  · exact (this hn hm (by omega)).symm
  by_contra hne
  -- two integers within one half of `q` stand on both sides of it
  have hlow := (abs_le.mp hm.near).2
  have hhigh := (abs_le.mp hn.near).1
  have hgap : (m : Rat) + 1 ≤ n := by exact_mod_cast (by omega : m + 1 ≤ n)
  have hnext : n = m + 1 := by
    have : (n : Rat) < m + 2 := by linarith
    have : n < m + 2 := by exact_mod_cast this
    omega
  have hqm : q - m = 1 / 2 := by linarith
  have hqn : q - n = -(1 / 2) := by linarith
  have hmeven := hm.even (by rw [hqm]; norm_num)
  have hneven := hn.even (by rw [hqn]; norm_num)
  omega

theorem roundHalfEven_eq_iff {q : Rat} {n : Int} : roundHalfEven q = n ↔ IsNearestEven q n := by
  constructor
  · rintro rfl
    exact isNearestEven_roundHalfEven q
  · exact (isNearestEven_roundHalfEven q).unique

end SequenceChart.Number
