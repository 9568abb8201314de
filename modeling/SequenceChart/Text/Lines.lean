/-
SequenceChart/Text/Lines.lean

Cutting a text into lines.

A line ends at any of ten boundary characters, and a carriage return
followed by a line feed ends one line, not two.  The last line needs no
terminator, and a terminator at the very end opens no further line, so the
empty text has no line at all.
-/

namespace SequenceChart.Text

/-- The characters that end a line. -/
def isLineBreak (c : Char) : Bool :=
  [0x0A, 0x0B, 0x0C, 0x0D, 0x1C, 0x1D, 0x1E, 0x85, 0x2028, 0x2029].contains c.toNat

/-- Put `c` in front of the first line; it opens one if there is none. -/
def consToHead (c : Char) : List (List Char) → List (List Char)
  | [] => [[c]]
  | line :: lines => (c :: line) :: lines

/-- The lines of a text, without their terminators. -/
def linesOf : List Char → List (List Char)
  | [] => []
  | '\r' :: '\n' :: rest => [] :: linesOf rest
  | c :: rest => if isLineBreak c then [] :: linesOf rest else consToHead c (linesOf rest)

/-- The lines of a text, without what ends them. -/
def splitLines (s : String) : List String :=
  (linesOf s.toList).map String.ofList

/-! ### One newline for all -/

/-- Every `\r\n`, and every `\r` that is left, becomes `\n`. -/
def unifyNewlinesChars : List Char → List Char
  | [] => []
  | '\r' :: '\n' :: rest => '\n' :: unifyNewlinesChars rest
  | c :: rest => (if c = '\r' then '\n' else c) :: unifyNewlinesChars rest

/-- The text as a reader sees it that knows the line feed as its only newline. -/
def unifyNewlines (s : String) : String :=
  String.ofList (unifyNewlinesChars s.toList)

end SequenceChart.Text
