/-
SequenceChart/Quantity.lean

Quantities: the coordinates, sizes and gaps of a chart.

A quantity is an exact integer or a binary64 number, and keeps that
difference to the end: `10` and `10.0` are written differently.  Sums,
differences and products of integers are exact; as soon as a binary64 number
takes part, the integer is rounded to the nearest one, which fails if it is
too large.  A half is always a binary64 number.  Comparing is exact, also
between an integer and a binary64 number, and nothing compares with NaN.
-/
import SequenceChart.Number.Notation

namespace SequenceChart

/-- A number that is either an exact integer or binary64. -/
inductive Quantity where
  | int (n : Int)
  | float (x : Float)
  deriving DecidableEq

instance : Inhabited Quantity := ⟨.int 0⟩

/-- Why an operation on quantities has no result. -/
inductive ArithmeticError where
  /-- An integer is beyond the range of binary64. -/
  | tooLarge
  /-- Half an integer is beyond the range of binary64. -/
  | halfTooLarge
  /-- NaN is rounded to no integer. -/
  | notANumber
  /-- An infinity is rounded to no integer. -/
  | infinite
  deriving DecidableEq, Repr

/-- What is said of an error. -/
def ArithmeticError.message : ArithmeticError → String
  | .tooLarge => "int too large to convert to float"
  | .halfTooLarge => "integer division result too large for a float"
  | .notANumber => "cannot convert float NaN to integer"
  | .infinite => "cannot convert float infinity to integer"

/-- A result of arithmetic. -/
abbrev Calc (α : Type) := Except ArithmeticError α

namespace Quantity

/-! ### Arithmetic -/

/-- The nearest binary64 number. -/
def toFloat : Quantity → Calc Float
  | float x => .ok x
  | int n =>
    let x := Float.ofInt n
    if x.isInf then .error .tooLarge else .ok x

/-- The sum, exact for integers. -/
def add : Quantity → Quantity → Calc Quantity
  | int a, int b => .ok (int (a + b))
  | a, b => do
    let x ← a.toFloat
    let y ← b.toFloat
    return float (x + y)

/-- The difference, exact for integers. -/
def sub : Quantity → Quantity → Calc Quantity
  | int a, int b => .ok (int (a - b))
  | a, b => do
    let x ← a.toFloat
    let y ← b.toFloat
    return float (x - y)

/-- The product, exact for integers. -/
def mul : Quantity → Quantity → Calc Quantity
  | int a, int b => .ok (int (a * b))
  | a, b => do
    let x ← a.toFloat
    let y ← b.toFloat
    return float (x * y)

/-- Half a quantity.  Half an integer `n` is rounded once, as the decimal
`5 * n / 10`. -/
def half : Quantity → Calc Quantity
  | float x => .ok (float (x / 2))
  | int n =>
    let magnitude := Float.ofScientific (5 * n.natAbs) true 1
    if magnitude.isInf then .error .halfTooLarge
    else .ok (float (if n < 0 then -magnitude else magnitude))

/-- The sum, starting at the integer zero.  It is added up from left to right, and
rounded at each step that a binary64 number takes part in: nothing compensates
for what earlier steps have lost. -/
def sum (qs : List Quantity) : Calc Quantity :=
  qs.foldlM add (int 0)

/-- The nearest integer; of two equally near ones the even one. -/
def round : Quantity → Calc Int
  | int n => .ok n
  | float x =>
    match Number.toRat? x with
    | some q => .ok (Number.roundHalfEven q)
    | none => .error (if x.isNaN then .notANumber else .infinite)

/-! ### Order -/

/-- Strictly less, by the exact values. -/
def lt : Quantity → Quantity → Bool
  | int a, int b => a < b
  | float x, float y => x < y
  | int a, float y =>
    match Number.toRat? y with
    | some q => (a : Rat) < q
    | none => 0 < y
  | float x, int b =>
    match Number.toRat? x with
    | some q => q < (b : Rat)
    | none => x < 0

/-- The greater of two; the first unless the second is strictly greater. -/
def max (a b : Quantity) : Quantity :=
  if a.lt b then b else a

/-- The greatest of `first` and `rest`; the first of several equal ones. -/
def maximum (first : Quantity) (rest : List Quantity) : Quantity :=
  rest.foldl max first

/-! ### Text -/

/-- A quantity in decimal notation. -/
def text : Quantity → String
  | int n => String.ofList (Number.integerText n)
  | float x => String.ofList (Number.floatText x)

end Quantity

end SequenceChart
