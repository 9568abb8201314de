/-
SequenceChart/Text/Blank.lean

Blank characters and trimming.

A blank is a character of the Unicode property White_Space or one of the
four information separators U+001C to U+001F.  A source line is read between
its outer blanks, so every name, message and header value of a chart starts
and ends with a character that is not blank.
-/

namespace SequenceChart.Text

/-- Closed ranges of the blank code points, ascending. -/
def blankRanges : List (Nat × Nat) :=
  [(0x09, 0x0D), (0x1C, 0x20), (0x85, 0x85), (0xA0, 0xA0), (0x1680, 0x1680),
   (0x2000, 0x200A), (0x2028, 0x2029), (0x202F, 0x202F), (0x205F, 0x205F),
   (0x3000, 0x3000)]

/-- Whether a character is blank. -/
def isBlank (c : Char) : Bool :=
  blankRanges.any fun r => r.1 ≤ c.toNat && c.toNat ≤ r.2

/-! ### Trimming -/

/-- Drop the leading blanks. -/
def trimLeft (s : List Char) : List Char :=
  s.dropWhile isBlank

/-- Drop the trailing blanks. -/
def trimRight (s : List Char) : List Char :=
  (s.reverse.dropWhile isBlank).reverse

/-- Drop the blanks at both ends; those inside stay. -/
def trimChars (s : List Char) : List Char :=
  trimRight (trimLeft s)

/-- A text without the blanks at its ends. -/
def trim (s : String) : String :=
  String.ofList (trimChars s.toList)

end SequenceChart.Text
