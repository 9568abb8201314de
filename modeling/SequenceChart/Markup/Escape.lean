/-
SequenceChart/Markup/Escape.lean

Escaping text for markup.

Five characters are written as entities.  The text is gone through once for
each of them, the ampersand first: the later passes insert ampersands of
their own, which must not be escaped again.
-/

namespace SequenceChart.Markup

/-- Replace one character throughout. -/
def replaceChar (c : Char) (entity : String) (s : List Char) : List Char :=
  s.flatMap fun x => if x = c then entity.toList else [x]

/-- The escaped characters with their entities, in the order of the passes. -/
def entities : List (Char × String) :=
  [('&', "&amp;"), ('<', "&lt;"), ('>', "&gt;"), ('"', "&quot;"), ('\'', "&#39;")]

/-- Replace the special characters, one after the other. -/
def escapeChars (s : List Char) : List Char :=
  entities.foldl (fun t entity => replaceChar entity.1 entity.2 t) s

/-- A text as it may stand between tags. -/
def escape (s : String) : String :=
  String.ofList (escapeChars s.toList)

/-! ### The same in one pass -/

/-- What a character is written as. -/
def entityOf (c : Char) : List Char :=
  match entities.lookup c with
  | some entity => entity.toList
  | none => [c]

/-- Substitute all five characters at once. -/
def substitute (s : List Char) : List Char :=
  s.flatMap entityOf

end SequenceChart.Markup
