/-
SequenceChart/Number/Notation.lean

How numbers are written in a chart.

An integer is written in decimal.  A binary64 number is written with the
fewest digits that identify it: positionally, with at least one digit after
the point, if the exponent of its leading digit is at least -4 and below 16,
and otherwise with a signed exponent of at least two digits.
-/
import SequenceChart.Number.Shortest

namespace SequenceChart.Number

/-- The text of an integer. -/
def integerText (n : Int) : List Char :=
  let digits := Nat.toDigits 10 n.natAbs
  if n < 0 then '-' :: digits else digits

/-! ### Laying out digits -/

/-- Digits with the point placed so that the leading one counts `10 ^ lead`. -/
def positional (digits : List Char) (lead : Int) : List Char :=
  if lead < 0 then
    '0' :: '.' :: (List.replicate (-lead - 1).toNat '0' ++ digits)
  else
    let places := lead.toNat + 1
    let whole := digits.take places ++ List.replicate (places - digits.length) '0'
    let fraction := digits.drop places
    whole ++ '.' :: (if fraction.isEmpty then ['0'] else fraction)

/-- Digits with the point after the leading one, and its exponent. -/
def scientific (digits : List Char) (lead : Int) : List Char :=
  let exponent := Nat.toDigits 10 lead.natAbs
  let padded := List.replicate (2 - exponent.length) '0' ++ exponent
  let mantissa := digits.take 1 ++ (if digits.length ≤ 1 then [] else '.' :: digits.drop 1)
  mantissa ++ 'e' :: (if lead < 0 then '-' else '+') :: padded

/-- Without the zeros at the end. -/
def dropTrailingZeros (digits : List Char) : List Char :=
  (digits.reverse.dropWhile (· = '0')).reverse

/-- A decimal in the notation that its size asks for. -/
def Decimal.text (d : Decimal) : List Char :=
  let all := Nat.toDigits 10 d.digits
  let lead := d.exponent + all.length - 1
  let digits := dropTrailingZeros all
  if -4 ≤ lead ∧ lead < 16 then positional digits lead else scientific digits lead

/-! ### Binary64 numbers -/

/-- The text of a number without its sign: the shortest decimal that is read as this
number. -/
def magnitudeText (x : Float) : List Char :=
  if x.isFinite then
    let m := Magnitude.ofFloat x
    if m.significand = 0 then ['0', '.', '0'] else m.shortest.text
  else ['i', 'n', 'f']

/-- The text of a binary64 number; the sign of zero is kept. -/
def floatText (x : Float) : List Char :=
  if x.isNaN then ['n', 'a', 'n']
  else if isNegative x then '-' :: magnitudeText x
  else magnitudeText x

end SequenceChart.Number
