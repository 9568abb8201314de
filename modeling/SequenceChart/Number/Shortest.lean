/-
SequenceChart/Number/Shortest.lean

The shortest decimal that reads back to a given binary64 number.

The rationals that round to a magnitude `m · 2 ^ q` form an interval around
it; its ends lie halfway to the two neighbours and belong to it exactly when
`m` is even.  For one digit, two digits and so on, the two neighbours of the
magnitude on the grid of decimals with that many digits are tested against
the interval.  The first grid with a hit wins; of two hits the nearer one is
taken, and on a tie the even one.
-/
import SequenceChart.Number.Binary

namespace SequenceChart.Number

/-- The decimal `digits * 10 ^ exponent`. -/
structure Decimal where
  digits : Nat
  exponent : Int
  deriving DecidableEq, Repr

/-! ### The rounding interval -/

/-- Halfway to the neighbour below. -/
def Magnitude.lowerEnd (m : Magnitude) : Rat :=
  ((m.significand : Rat) - (if m.narrowBelow then 1 / 4 else 1 / 2)) * (2 : Rat) ^ m.exponent

/-- Halfway to the neighbour above. -/
def Magnitude.upperEnd (m : Magnitude) : Rat :=
  ((m.significand : Rat) + 1 / 2) * (2 : Rat) ^ m.exponent

/-- Whether `v` rounds to the magnitude. -/
def Magnitude.admits (m : Magnitude) (v : Rat) : Bool :=
  if m.significand % 2 = 0 then m.lowerEnd ≤ v && v ≤ m.upperEnd
  else m.lowerEnd < v && v < m.upperEnd

/-! ### The search -/

/-- How many decimal digits a number has. -/
def digitCount (n : Nat) : Nat :=
  (Nat.toDigits 10 n).length

/-- The least `k` with `v < 10 ^ k`, for a positive `v`. -/
def decimalScale (v : Rat) : Int :=
  if 1 ≤ v then digitCount v.floor.toNat
  else 1 - (digitCount ((1 / v).ceil - 1).toNat : Int)

/-- The multiple of `unit` that reads back, counted in units, if there is one. -/
def Magnitude.onGrid? (m : Magnitude) (unit : Rat) : Option Nat :=
  let below := (m.value / unit).floor.toNat
  let low := (below : Rat) * unit
  let high := ((below + 1 : Nat) : Rat) * unit
  match m.admits low, m.admits high with
  | false, false => none
  | true, false => some below
  | false, true => some (below + 1)
  | true, true =>
    -- both read back: the nearer one, or the even one of two that are equally near
    let twice := m.value + m.value
    if twice < low + high then some below
    else if low + high < twice then some (below + 1)
    else some (if below % 2 = 0 then below else below + 1)

/-- Search the grids with `count` digits and more, at most `fuel` of them. -/
def Magnitude.search (m : Magnitude) (scale : Int) : Nat → Nat → Decimal
  | 0, count =>
    let exponent := scale - count
    { digits := (m.value / (10 : Rat) ^ exponent).floor.toNat, exponent := exponent }
  | fuel + 1, count =>
    let exponent := scale - count
    match m.onGrid? ((10 : Rat) ^ exponent) with
    | some digits => { digits := digits, exponent := exponent }
    | none => m.search scale fuel (count + 1)

/-- The shortest decimal that reads back to a positive magnitude.  A magnitude
has at most 767 significant decimal digits, so the search ends with a hit. -/
def Magnitude.shortest (m : Magnitude) : Decimal :=
  m.search (decimalScale m.value) 767 1

end SequenceChart.Number
