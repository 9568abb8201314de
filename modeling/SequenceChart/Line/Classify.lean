/-
SequenceChart/Line/Classify.lean

Classifying a line by its own text.

Between its outer blanks a line is empty, a comment (`#`), a directive (`:`),
an interaction, or invalid.  An interaction is cut at an arrow: one or more
`-` followed by one or more `>`.  An arrow separates a line if nothing before
it is a line feed and, after it, the text behind the first colon has no line
feed either; the first arrow that separates is the one that counts.  What
stands before it names the sender, what follows up to the first colon the
receiver, and the rest is the message.
-/
import SequenceChart.Line
import SequenceChart.Text.Blank
import SequenceChart.Text.Lines

namespace SequenceChart.Line

open Text

/-! ### Arrows -/

/-- What follows an arrow that starts here, both of its runs being as long as
possible. -/
def afterArrow? (t : List Char) : Option (List Char) :=
  match t, t.dropWhile (· = '-') with
  | '-' :: _, '>' :: rest => some (rest.dropWhile (· = '>'))
  | _, _ => none

/-- Cut the text after an arrow into the receiver and the message, at its
first colon.  A message that has a line feed is refused. -/
def cutMessage? (r : List Char) : Option (List Char × List Char) :=
  match r.dropWhile (· ≠ ':') with
  | [] => some (r, [])
  | _ :: message =>
    if message.contains '\n' then none else some (r.takeWhile (· ≠ ':'), message)

/-- The three parts of an interaction, not yet trimmed. -/
structure Parts where
  sender : List Char
  receiver : List Char
  message : List Char
  deriving DecidableEq, Repr

/-- The receiver and the message, if an arrow that separates starts here. -/
def separator? (t : List Char) : Option (List Char × List Char) :=
  (afterArrow? t).bind cutMessage?

/-- Cut a line at the first arrow that separates it. -/
def parts? : List Char → Option Parts
  | [] => none
  | c :: rest =>
    match separator? (c :: rest) with
    | some (receiver, message) => some ⟨[], receiver, message⟩
    | none =>
      -- no separator has a line feed before it
      if c = '\n' then none
      else (parts? rest).map fun parts => { parts with sender := c :: parts.sender }

/-! ### Directives -/

/-- What a keyword sets; it has to match exactly. -/
def directiveKind (keyword : String) : Directive.Kind :=
  if keyword = ":theme" then .theme
  else if keyword = ":title" then .title
  else if keyword = ":author" then .author
  else if keyword = ":date" then .date
  else .unknown

/-- A trimmed line as a directive: the keyword ends at the first blank. -/
def readDirective (t : List Char) : Directive :=
  let keyword := String.ofList (t.takeWhile fun c => !isBlank c)
  { kind := directiveKind keyword
    value := String.ofList (trimChars (t.dropWhile fun c => !isBlank c))
    keyword := keyword }

/-! ### Lines -/

/-- A line cut into parts.  It is invalid if a name is missing. -/
def ofParts (number : Int) (text : String) (parts : Parts) : Line :=
  let sender := trimChars parts.sender
  let receiver := trimChars parts.receiver
  let message := trimChars parts.message
  if sender.isEmpty || receiver.isEmpty then
    { number := number, text := text, kind := .invalid }
  else if message.isEmpty then
    { number := number, text := text, kind := .interaction
      sender := some (String.ofList sender), receiver := some (String.ofList receiver) }
  else
    { number := number, text := text, kind := .interactionWithMessage
      sender := some (String.ofList sender), receiver := some (String.ofList receiver)
      message := some (String.ofList message) }

/-- Classify one line.  Every text is classified. -/
def classify (text : String) (number : Int := 0) : Line :=
  match trimChars text.toList with
  | [] => { number := number, text := text, kind := .blank }
  | '#' :: _ => { number := number, text := text, kind := .comment }
  | ':' :: rest =>
    { number := number, text := text, kind := .directive
      directive := some (readDirective (':' :: rest)) }
  | t =>
    match parts? t with
    | some parts => ofParts number text parts
    | none => { number := number, text := text, kind := .invalid }

/-- Classify lines, numbering them from zero. -/
def classifyAll (texts : List String) : List Line :=
  texts.zipIdx.map fun (text, k) => classify text k

/-- Cut a text into lines and classify them. -/
def readAll (source : String) : List Line :=
  classifyAll (splitLines source)

end SequenceChart.Line
