/-
SequenceChart/Proofs/Header.lean

Which line a field of the header comes from.

Each of the four fields is set by directives of its own kind, and a field is
what the last of its settings says: its value, or nothing if that value is
empty, also where an earlier one was not (`Header.get_collect`).  So a line
that does not set a field makes no difference to it, and of two pieces of a
source the later one decides, unless it leaves the field alone
(`Header.Deciding`).

A single directive sets its field and keeps the three others
(`Header.get_apply`); the rest is an induction over the directives, from the
last one back.
-/
import Mathlib.Data.List.Induction
import SequenceChart.Header
import SequenceChart.Line.Classify

namespace SequenceChart

namespace Header

/-! ### Fields and their settings -/

/-- The fields of a header, by their names. -/
inductive Field where
  | title
  | author
  | date
  | theme
  deriving DecidableEq, Repr

/-- The kind of the directives that set the field. -/
def Field.kind : Field → Directive.Kind
  | title => .title
  | author => .author
  | date => .date
  | theme => .theme

/-- The value of a field. -/
def get (header : Header) : Field → Option String
  | .title => header.title
  | .author => header.author
  | .date => header.date
  | .theme => header.theme

end Header

namespace Line

variable {line : Line} {field : Header.Field} {value : String}

/-- Whether the line is a directive that gives the field a value, which may be
empty. -/
def Sets (line : Line) (field : Header.Field) (value : String) : Prop :=
  line.kind = .directive ∧
    ∃ d, line.directive = some d ∧ d.kind = field.kind ∧ d.value = value

/-- Whether the line sets the field to anything. -/
def Concerns (line : Line) (field : Header.Field) : Prop :=
  ∃ value, line.Sets field value

/-- The value that a line gives the field, if it sets it. -/
def setting? (field : Header.Field) (line : Line) : Option String :=
  ((Header.directiveOf? line).filter fun d => d.kind = field.kind).map Directive.value

end Line

namespace Header

variable {line : Line} {lines : List Line} {d : Directive} {field : Field} {value : String}

theorem directiveOf?_eq_some :
    directiveOf? line = some d ↔ line.kind = .directive ∧ line.directive = some d := by
  unfold directiveOf?
  split <;> simp_all

theorem setting?_eq_some : line.setting? field = some value ↔ line.Sets field value := by
  simp [Line.setting?, Line.Sets, Option.filter_eq_some_iff, directiveOf?_eq_some, and_assoc]

theorem setting?_eq_none : line.setting? field = none ↔ ¬ line.Concerns field := by
  rw [Option.eq_none_iff_forall_ne_some, Line.Concerns, not_exists]
  exact forall_congr' fun value => not_congr setting?_eq_some

theorem filterMap_setting?_eq_nil (h : ∀ line ∈ lines, ¬ line.Concerns field) :
    lines.filterMap (Line.setting? field) = [] :=
  List.filterMap_eq_nil_iff.mpr fun line hline => setting?_eq_none.mpr (h line hline)

/-! ### The last setting -/

/-- A directive sets the field of its kind and keeps the others. -/
theorem get_apply (header : Header) (d : Directive) (field : Field) :
    (header.apply d).get field = if d.kind = field.kind then nonempty? d.value else header.get field := by
  rcases hd : d.kind with - | - | - | - | - <;> cases field <;> simp [apply, get, Field.kind, hd]

/-- A field has the value of the last directive about it. -/
theorem get_foldl_apply (ds : List Directive) (header : Header) (field : Field) :
    (ds.foldl apply header).get field =
      (((ds.filter fun d => d.kind = field.kind).getLast?).map fun d => nonempty? d.value).getD
        (header.get field) := by
  induction ds using List.reverseRecOn with
  | nil => rfl
  | append_singleton ds d ih =>
      rw [List.foldl_append, List.foldl_cons, List.foldl_nil, get_apply, List.filter_append]
      by_cases h : d.kind = field.kind
      · simp [h]
      · simp [h, ih]

/-- **A field is what the last of its settings says.** -/
theorem get_collect (lines : List Line) (field : Field) :
    (collect lines).get field =
      ((lines.filterMap (Line.setting? field)).getLast?).bind nonempty? := by
  have hempty : ({} : Header).get field = none := by cases field <;> rfl
  have hsettings : lines.filterMap (Line.setting? field) =
      ((lines.filterMap directiveOf?).filter fun d => d.kind = field.kind).map Directive.value := by
    rw [List.filter_filterMap, List.map_filterMap]
    rfl
  rw [collect, get_foldl_apply, hsettings, List.getLast?_map, hempty]
  rcases h : ((lines.filterMap directiveOf?).filter fun d => d.kind = field.kind).getLast? with
    - | d <;> simp [h]

/-! ### What decides -/

/-- How the lines of a source decide on a field of its header. -/
structure Deciding (field : Field) : Prop where
  /-- The last line that sets the field counts. -/
  last : ∀ before line after value, line.Sets field value →
    (∀ later ∈ after, ¬ later.Concerns field) → value ≠ "" →
    (collect (before ++ line :: after)).get field = some value
  /-- It clears the field if it gives no value, whatever stands before it. -/
  cleared : ∀ before line after, line.Sets field "" →
    (∀ later ∈ after, ¬ later.Concerns field) →
    (collect (before ++ line :: after)).get field = none
  absent : ∀ lines, (∀ line ∈ lines, ¬ line.Concerns field) → (collect lines).get field = none
  /-- A line that does not set the field could as well be left out. -/
  other : ∀ before line after, ¬ line.Concerns field →
    (collect (before ++ line :: after)).get field = (collect (before ++ after)).get field
  /-- Of two pieces the later one decides, if it sets the field. -/
  later : ∀ lines more, (∃ line ∈ more, line.Concerns field) →
    (collect (lines ++ more)).get field = (collect more).get field
  earlier : ∀ lines more, (∀ line ∈ more, ¬ line.Concerns field) →
    (collect (lines ++ more)).get field = (collect lines).get field

/-- What a line sets stays, if no later line is about the same field. -/
theorem get_collect_of_last (before : List Line) {after : List Line} (hline : line.Sets field value)
    (hafter : ∀ later ∈ after, ¬ later.Concerns field) :
    (collect (before ++ line :: after)).get field = nonempty? value := by
  rw [get_collect, List.filterMap_append, List.filterMap_cons, setting?_eq_some.mpr hline,
    filterMap_setting?_eq_nil hafter]
  simp

/-- A field is set by the later lines, or else by the earlier ones. -/
theorem get_collect_append (lines more : List Line) (field : Field) :
    (collect (lines ++ more)).get field =
      (((more.filterMap (Line.setting? field)).getLast?).or
        (lines.filterMap (Line.setting? field)).getLast?).bind nonempty? := by
  rw [get_collect, List.filterMap_append, List.getLast?_append]

/-- **The last line counts that sets a field, and no other line does**, for each of
the four fields and for lines of all kinds. -/
theorem deciding_collect (field : Field) : Deciding field where
  last := by
    intro before line after value hline hafter hvalue
    rw [get_collect_of_last before hline hafter, nonempty?, if_neg hvalue]
  cleared := by
    intro before line after hline hafter
    rw [get_collect_of_last before hline hafter]
    rfl
  absent := by
    intro lines hlines
    rw [get_collect, filterMap_setting?_eq_nil hlines]
    rfl
  other := by
    intro before line after hline
    rw [get_collect, get_collect, List.filterMap_append, List.filterMap_append,
      List.filterMap_cons_none (setting?_eq_none.mpr hline)]
  later := by
    rintro lines more ⟨line, hline, value, hsets⟩
    -- a setting in the later piece hides those of the earlier one
    have hmem : value ∈ more.filterMap (Line.setting? field) :=
      List.mem_filterMap.mpr ⟨line, hline, setting?_eq_some.mpr hsets⟩
    rw [get_collect_append, get_collect, List.getLast?_eq_some_getLast (List.ne_nil_of_mem hmem),
      Option.some_or]
  earlier := by
    intro lines more hmore
    rw [get_collect_append, get_collect, filterMap_setting?_eq_nil hmore]
    rfl

/-- An empty title clears the one before it; the date in between stays. -/
example : collect (Line.readAll ":title T\n:date today\n:title") = { date := some "today" } := by
  decide +kernel

end Header

end SequenceChart
