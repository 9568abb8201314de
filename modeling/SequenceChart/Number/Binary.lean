/-
SequenceChart/Number/Binary.lean

The exact value of a binary64 number.

A finite number is `± m · 2 ^ q` for naturals `m < 2 ^ 53` and integers `q`,
and is decoded from its bits here; whatever has to be exact (comparing with
an integer, rounding to one, choosing digits) is then done in the rationals.
-/

namespace SequenceChart.Number

/-! ### Magnitudes -/

/-- The magnitude `significand * 2 ^ exponent` of a finite number. -/
structure Magnitude where
  significand : Nat
  exponent : Int
  /-- The neighbour below is half as far away as the neighbour above. -/
  narrowBelow : Bool
  deriving DecidableEq, Repr

/-- Whether the sign bit is set; it is for `-0.0`. -/
def isNegative (x : Float) : Bool :=
  x.toBits.toNat.testBit 63

/-- The magnitude of a finite number.  NaN and the infinities are to be told
apart before. -/
def Magnitude.ofFloat (x : Float) : Magnitude :=
  let bits : Nat := x.toBits.toNat
  let biased : Nat := (bits >>> 52) % 0x800
  let fraction : Nat := bits % (1 <<< 52)
  if biased = 0 then
    -- a subnormal number, or zero
    { significand := fraction, exponent := -1074, narrowBelow := false }
  else
    { significand := (1 <<< 52) + fraction
      exponent := (biased : Int) - 1075
      narrowBelow := fraction = 0 && 1 < biased }

/-- The value of a magnitude. -/
def Magnitude.value (m : Magnitude) : Rat :=
  (m.significand : Rat) * (2 : Rat) ^ m.exponent

/-- The exact value of a number; NaN and the infinities have none. -/
def toRat? (x : Float) : Option Rat :=
  if x.isFinite then
    let v := (Magnitude.ofFloat x).value
    some (if isNegative x then -v else v)
  else none

/-! ### Rounding to an integer -/

/-- The nearest integer; of two equally near ones the even one. -/
def roundHalfEven (q : Rat) : Int :=
  let below := q.floor
  let excess := q - (below : Rat)
  if excess < 1 / 2 then below
  else if 1 / 2 < excess then below + 1
  else if below % 2 = 0 then below
  else below + 1

end SequenceChart.Number
