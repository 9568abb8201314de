/-
SequenceChart/Markup/Token.lean

Markup as a list of tokens, and its text.

Only a label holds text from the outside, and it is the one token that is
escaped: whatever a label says, the tags of the text are those of the list.
-/
import SequenceChart.Markup.Escape

namespace SequenceChart.Markup

/-- An attribute of a tag, with its value. -/
abbrev Attribute := String × String

/-- A piece of markup. -/
inductive Token where
  /-- A start tag. -/
  | start (name : String) (attributes : List Attribute)
  /-- An empty element. -/
  | void (name : String) (attributes : List Attribute)
  /-- An end tag. -/
  | finish (name : String)
  /-- Character data that is written as it stands. -/
  | data (text : String)
  /-- Character data that is escaped. -/
  | label (text : String)
  deriving DecidableEq, Repr

namespace Token

/-- An attribute, with the blank before it. -/
def attributeChars (a : Attribute) : List Char :=
  ' ' :: a.1.toList ++ '=' :: '"' :: a.2.toList ++ ['"']

/-- The characters of a token.  Only labels are escaped. -/
def chars : Token → List Char
  | start name attributes => '<' :: name.toList ++ attributes.flatMap attributeChars ++ ['>']
  | void name attributes => '<' :: name.toList ++ attributes.flatMap attributeChars ++ [' ', '/', '>']
  | finish name => '<' :: '/' :: name.toList ++ ['>']
  | data text => text.toList
  | label text => escapeChars text.toList

end Token

/-- The text of a list of tokens. -/
def print (tokens : List Token) : String :=
  String.ofList (tokens.flatMap Token.chars)

/-- An element that holds a label. -/
def labelled (name : String) (attributes : List Attribute) (text : String) : List Token :=
  [.start name attributes, .label text, .finish name]

/-- Pieces of markup, each on a line of its own. -/
def onLines (pieces : List (List Token)) : List Token :=
  List.intercalate [.data "\n"] pieces

end SequenceChart.Markup
