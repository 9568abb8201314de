/-
SequenceChart/Text/Quoted.lean

Quoted text, the form in which diagnostics show a name or a line.

The text stands between single quotes, or between double quotes if it holds
a single quote and no double one.  The enclosing mark and the backslash are
escaped by a backslash, the newline, carriage return and tab have a letter
each, and every other unprintable character is written by its code point in
the shortest of the forms `\xNN`, `\uNNNN` and `\UNNNNNNNN`.
-/
import SequenceChart.Text.Hex
import SequenceChart.Text.Printable

namespace SequenceChart.Text

/-- The mark that encloses a quoted text. -/
def quoteMark (s : List Char) : Char :=
  if s.contains '\'' && !s.contains '"' then '"' else '\''

/-- The escape of an unprintable character by its code point. -/
def codePointEscape (c : Char) : List Char :=
  if c.toNat < 0x100 then '\\' :: 'x' :: hexDigits 2 c.toNat
  else if c.toNat < 0x10000 then '\\' :: 'u' :: hexDigits 4 c.toNat
  else '\\' :: 'U' :: hexDigits 8 c.toNat

/-- One character inside a text enclosed by `mark`. -/
def quotedChar (mark c : Char) : List Char :=
  if c = mark ∨ c = '\\' then ['\\', c]
  else if c = '\n' then ['\\', 'n']
  else if c = '\r' then ['\\', 'r']
  else if c = '\t' then ['\\', 't']
  else if isPrintable c then [c]
  else codePointEscape c

/-- The characters of a text between quotation marks. -/
def quotedChars (s : List Char) : List Char :=
  let mark := quoteMark s
  mark :: s.flatMap (quotedChar mark) ++ [mark]

/-- A text between quotation marks, on one line. -/
def quoted (s : String) : String :=
  String.ofList (quotedChars s.toList)

end SequenceChart.Text
