/-
SequenceChart/Proofs/Mention.lean

The mentions of a chart: which names its interaction lines mention, in which
rows, and in which order.

The pass over the participants reads a flat list of mentions.  Its rows never
decrease (`mentions_sorted`), a row holds the two endpoints of one interaction
line (`mem_mentions`), and without the rows the list is that of the endpoint
names of the lines (`names_mentions`).  More lines only add to the list
(`mentions_isPrefix`).
-/
import Mathlib.Order.Bounds.Defs
import SequenceChart.Line.Classify
import SequenceChart.Participant

namespace SequenceChart

namespace Line

theorem interactions_append (lines more : List Line) :
    interactions (lines ++ more) = interactions lines ++ interactions more :=
  List.filter_append _ _

/-! ### Endpoint names -/

/-- Whether both endpoints of every interaction line have a name. -/
def Named (lines : List Line) : Prop :=
  ∀ line ∈ interactions lines, line.sender.isSome ∧ line.receiver.isSome

instance (lines : List Line) : Decidable (Named lines) := by
  unfold Named
  infer_instance

/-- The names of the endpoints of the interaction lines, a sender before its
receiver. -/
def endpointNames (lines : List Line) : List String :=
  (interactions lines).flatMap fun line => line.sender.toList ++ line.receiver.toList

/-- The distinct endpoint names, in the order of first mention. -/
def firstMentions (lines : List Line) : List String :=
  (endpointNames lines).eraseDups

/-- Who is mentioned is the sender or the receiver of an interaction. -/
theorem mem_firstMentions {lines : List Line} {name : String} :
    name ∈ firstMentions lines ↔
      ∃ line ∈ interactions lines, line.sender = some name ∨ line.receiver = some name := by
  simp [firstMentions, endpointNames, Option.mem_toList]

/-! ### Lines that are read -/

theorem named_ofParts {number : Int} {text : String} {parts : Parts}
    (h : (ofParts number text parts).isInteraction) :
    (ofParts number text parts).sender.isSome ∧ (ofParts number text parts).receiver.isSome := by
  unfold ofParts at h ⊢
  dsimp only at h ⊢
  split at h
  · exact absurd h (by simp [isInteraction])
  · rename_i hnames
    rw [if_neg hnames]
    split <;> exact ⟨rfl, rfl⟩

/-- An interaction that was read from a text names both of its ends. -/
theorem named_classify {text : String} {number : Int}
    (h : (classify text number).isInteraction) :
    (classify text number).sender.isSome ∧ (classify text number).receiver.isSome := by
  unfold classify at h ⊢
  split at h
  · cases h
  · cases h
  · cases h
  · split at h
    · exact named_ofParts h
    · cases h

/-- The lines that are read from a source are named. -/
theorem named_classifyAll (texts : List String) : Named (classifyAll texts) := by
  intro line hline
  obtain ⟨hline, hkind⟩ := List.mem_filter.mp hline
  obtain ⟨⟨text, k⟩, -, rfl⟩ := List.mem_map.mp hline
  exact named_classify hkind

end Line

namespace Mention

/-- The names that are mentioned, as often as they are. -/
def names (ms : List Mention) : List String :=
  ms.filterMap Mention.name

/-- The rows in which a name is mentioned. -/
def rows (ms : List Mention) (name : String) : Set Int :=
  {k | ∃ row : Nat, k = row ∧ ⟨row, some name⟩ ∈ ms}

theorem names_concat (ms : List Mention) (row : Nat) (name : String) :
    names (ms ++ [⟨row, some name⟩]) = names ms ++ [name] := by
  simp [names, List.filterMap_append]

theorem mem_names {ms : List Mention} {name : String} :
    name ∈ names ms ↔ ∃ row, ⟨row, some name⟩ ∈ ms := by
  constructor
  · intro h
    obtain ⟨⟨row, name'⟩, hm, rfl⟩ := List.mem_filterMap.mp h
    exact ⟨row, hm⟩
  · rintro ⟨row, hm⟩
    exact List.mem_filterMap.mpr ⟨_, hm, rfl⟩

/-- A mention adds no row to other names. -/
theorem rows_concat_of_ne {ms : List Mention} {row : Nat} {name other : String}
    (h : other ≠ name) : rows (ms ++ [⟨row, some name⟩]) other = rows ms other := by
  ext k
  simp [rows, h]

theorem mem_rows_concat_self (ms : List Mention) (row : Nat) (name : String) :
    (row : Int) ∈ rows (ms ++ [⟨row, some name⟩]) name :=
  ⟨row, rfl, by simp⟩

theorem rows_subset_concat (ms : List Mention) (m : Mention) (name : String) :
    rows ms name ⊆ rows (ms ++ [m]) name := by
  rintro k ⟨row, hk, hm⟩
  exact ⟨row, hk, List.mem_append_left _ hm⟩

/-- A row of one more mention is an old row or the new one. -/
theorem mem_rows_concat {ms : List Mention} {row : Nat} {name name' : String} {k : Int}
    (h : k ∈ rows (ms ++ [⟨row, some name'⟩]) name) : k ∈ rows ms name ∨ k = row := by
  obtain ⟨row', hk, hm⟩ := h
  rcases List.mem_append.mp hm with hm | hm
  · exact .inl ⟨row', hk, hm⟩
  · obtain ⟨rfl, -⟩ : row' = row ∧ name = name' := by simpa using hm
    exact .inr hk

theorem le_of_mem_rows {ms : List Mention} {row : Nat} {name : String} {k : Int}
    (hrow : ∀ m ∈ ms, m.row ≤ row) (h : k ∈ rows ms name) : k ≤ row := by
  obtain ⟨row', rfl, hm⟩ := h
  exact Int.ofNat_le.mpr (hrow _ hm)

end Mention

/-! ### The mentions of lines -/

/-- The mentions of interaction lines whose rows are counted from `k`. -/
private def mentionsFrom (k : Nat) (lines : List Line) : List Mention :=
  (lines.zipIdx k).flatMap fun (line, row) => [⟨row, line.sender⟩, ⟨row, line.receiver⟩]

private theorem mentionsFrom_cons (k : Nat) (line : Line) (lines : List Line) :
    mentionsFrom k (line :: lines) =
      ⟨k, line.sender⟩ :: ⟨k, line.receiver⟩ :: mentionsFrom (k + 1) lines := rfl

private theorem le_of_mem_mentionsFrom {k : Nat} {lines : List Line} {m : Mention}
    (h : m ∈ mentionsFrom k lines) : k ≤ m.row := by
  induction lines generalizing k with
  | nil => cases h
  | cons line lines ih =>
      rw [mentionsFrom_cons] at h
      simp only [List.mem_cons] at h
      rcases h with rfl | rfl | h
      · exact Nat.le_refl k
      · exact Nat.le_refl k
      · exact Nat.le_of_succ_le (ih h)

/-- Mentions are in the order of their rows. -/
theorem mentions_sorted (lines : List Line) :
    (mentions lines).Pairwise fun m m' => m.row ≤ m'.row := by
  -- counted from any row, for the induction goes on from the next one
  suffices H : ∀ k (ls : List Line), (mentionsFrom k ls).Pairwise fun m m' => m.row ≤ m'.row from
    H 0 (Line.interactions lines)
  intro k ls
  induction ls generalizing k with
  | nil => exact List.Pairwise.nil
  | cons line ls ih =>
      rw [mentionsFrom_cons, List.pairwise_cons, List.pairwise_cons]
      have later : ∀ m ∈ mentionsFrom (k + 1) ls, k ≤ m.row := fun m hm =>
        Nat.le_of_succ_le (le_of_mem_mentionsFrom hm)
      refine ⟨?_, later, ih (k + 1)⟩
      intro m hm
      rcases List.mem_cons.mp hm with rfl | hm
      · exact Nat.le_refl k
      · exact later m hm

/-- The names that are mentioned are those at the ends of the interactions. -/
theorem names_mentions (lines : List Line) :
    Mention.names (mentions lines) = Line.endpointNames lines := by
  suffices H : ∀ k (ls : List Line), Mention.names (mentionsFrom k ls) =
      ls.flatMap fun line => line.sender.toList ++ line.receiver.toList from
    H 0 (Line.interactions lines)
  intro k ls
  induction ls generalizing k with
  | nil => rfl
  | cons line ls ih =>
      rw [List.flatMap_cons, ← ih (k + 1), mentionsFrom_cons]
      rcases line.sender with - | sender <;> rcases line.receiver with - | receiver <;>
        simp [Mention.names]

theorem mem_mentions {lines : List Line} {row : Nat} {name : Option String} :
    ⟨row, name⟩ ∈ mentions lines ↔
      ∃ line, (Line.interactions lines)[row]? = some line ∧
        (line.sender = name ∨ line.receiver = name) := by
  rw [mentions, List.mem_flatMap]
  constructor
  · rintro ⟨⟨line, row'⟩, hline, hm⟩
    have hline' := List.mk_mem_zipIdx_iff_getElem?.mp hline
    simp only [List.mem_cons, Mention.mk.injEq, List.not_mem_nil, or_false] at hm
    rcases hm with ⟨rfl, rfl⟩ | ⟨rfl, rfl⟩
    · exact ⟨line, hline', .inl rfl⟩
    · exact ⟨line, hline', .inr rfl⟩
  · rintro ⟨line, hline, hname⟩
    refine ⟨(line, row), List.mk_mem_zipIdx_iff_getElem?.mpr hline, ?_⟩
    rcases hname with rfl | rfl <;> simp

/-- Lines that are added at the end change no earlier mention. -/
theorem mentions_isPrefix (lines more : List Line) : mentions lines <+: mentions (lines ++ more) := by
  rw [mentions, mentions, Line.interactions_append, List.zipIdx_append, List.flatMap_append]
  exact List.prefix_append _ _

/-- Where the lines are named, no mention lacks its name. -/
theorem name_ne_none_of_mem_mentions {lines : List Line} (h : Line.Named lines) {m : Mention}
    (hm : m ∈ mentions lines) : m.name ≠ none := by
  obtain ⟨row, name⟩ := m
  obtain ⟨line, hline, hname⟩ := mem_mentions.mp hm
  obtain ⟨hs, hr⟩ := h line (List.mem_of_getElem? hline)
  rintro rfl
  rcases hname with hname | hname
  · simp [hname] at hs
  · simp [hname] at hr

end SequenceChart
