/-
SequenceChart/Text/Percent.lean

Percent-encoding of a text inside a web address.

ASCII letters and digits, the marks `_`, `.`, `-`, `~` and the slash stand
for themselves.  Of any other character each byte of its UTF-8 form is
written as `%` and two upper-case hexadecimal digits.
-/
import SequenceChart.Text.Hex

namespace SequenceChart.Text

/-- The characters that need no encoding. -/
def isAddressSafe (c : Char) : Bool :=
  c.isAlphanum || ['_', '.', '-', '~', '/'].contains c

/-- A byte, as an address has it. -/
def percentByte (b : UInt8) : List Char :=
  '%' :: (hexDigits 2 b.toNat).map Char.toUpper

/-- A character, as an address has it: by the bytes of its code unless it is safe. -/
def percentChar (c : Char) : List Char :=
  if isAddressSafe c then [c] else (String.utf8EncodeChar c).flatMap percentByte

/-- A text as a part of an address. -/
def percentEncode (s : String) : String :=
  String.ofList (s.toList.flatMap percentChar)

end SequenceChart.Text
