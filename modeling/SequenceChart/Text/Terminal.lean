/-
SequenceChart/Text/Terminal.lean

Text without the control sequences of terminals.

A control sequence is the escape character and an opening bracket, then any
number of parameters (digits, `;` and `?`), then one ASCII letter.  They are
removed in a single pass from left to right: what a removal brings together
is not looked at again, and an escape character that opens no control
sequence stays.
-/

namespace SequenceChart.Text

/-- Whether a character may stand between the bracket and the letter of a control
sequence. -/
def isParameter (c : Char) : Bool :=
  c.isDigit || c = ';' || c = '?'

/-- The length of the control sequence that starts here. -/
def controlLength? : List Char → Option Nat
  | '\x1b' :: '[' :: rest =>
    match rest.dropWhile isParameter with
    | [] => none
    | final :: _ =>
      if final.isAlpha then some ((rest.takeWhile isParameter).length + 3) else none
  | _ => none

/-- Drop `skip` characters, and the control sequences of the rest. -/
def plainFrom : Nat → List Char → List Char
  | _, [] => []
  | skip + 1, _ :: rest => plainFrom skip rest
  | 0, c :: rest =>
    match controlLength? (c :: rest) with
    | some length => plainFrom (length - 1) rest
    | none => c :: plainFrom 0 rest

/-- The characters that are in no control sequence. -/
def plainChars (s : List Char) : List Char :=
  plainFrom 0 s

/-- A text without its control sequences. -/
def plain (s : String) : String :=
  String.ofList (plainChars s.toList)

/-! ### Text that is plain already -/

theorem controlLength?_cons_of_ne {c : Char} (h : c ≠ '\x1b') (rest : List Char) :
    controlLength? (c :: rest) = none := by
  unfold controlLength?
  split
  · next heq => exact absurd (List.cons.inj heq).1 h
  · rfl

/-- Without an escape character there is nothing to remove. -/
theorem plainChars_eq_self {s : List Char} (h : '\x1b' ∉ s) : plainChars s = s := by
  induction s with
  | nil => rfl
  | cons c rest ih =>
    have hc : c ≠ '\x1b' := fun he => h (by simp [he])
    have hrest : plainChars rest = rest := ih fun hm => h (List.mem_cons_of_mem c hm)
    rw [plainChars, plainFrom, controlLength?_cons_of_ne hc]
    exact congrArg (c :: ·) hrest

theorem plain_eq_self {s : String} (h : '\x1b' ∉ s.toList) : plain s = s := by
  rw [plain, plainChars_eq_self h, String.ofList_toList]

end SequenceChart.Text
