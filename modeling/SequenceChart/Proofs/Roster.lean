/-
SequenceChart/Proofs/Roster.lean

The pass over the participants, as an account of the mentions it has read.

`Records ps ms` says that the participants `ps` are those of the mentions
`ms`: their names are the distinct ones in the order of first mention, each
participant stands at its own index, and its span reaches from the least to
the greatest row that mentions its name.  What one mention can do to a roster
is said once (`mention_result_ok`); both of its outcomes keep the account
(`Records.extend`, `Records.enter`), and so does the whole pass
(`records_of_resolveParticipants`), whatever measures the labels.
-/
import Mathlib.Data.List.Induction
import SequenceChart.Proofs.FirstOccurrence
import SequenceChart.Proofs.Mention
import SequenceChart.Proofs.Run

namespace SequenceChart

open FirstOccurrence

variable {σ : Type} {measurer : Measurer σ} {layout : Layout}

theorem Measurer.ask_result (measurer : Measurer σ) (text : String) (fontSize : Quantity) (s : σ) :
    (measurer.ask text fontSize s).result = (measurer text fontSize s).result := rfl

namespace Roster

variable {roster roster' : Roster} {ms : List Mention}

/-! ### What a mention does -/

theorem knows_iff {name : String} :
    roster.knows name ↔ name ∈ roster.entries.map Participant.name := by
  simp [knows, List.any_eq_true]

/-- The entry for a new name in a row, with its label measured. -/
def newcomer (roster : Roster) (name : String) (row : Nat) (size : Size) : Participant :=
  { name := name, index := roster.entries.length, firstRow := row, lastRow := row
    x := roster.cursor, labelWidth := size.width, labelHeight := size.height }

/-- A name that is entered was measured, and moves the cursor on. -/
theorem enter_result_ok {name : String} {row : Nat} {s : σ}
    (h : (enter measurer layout roster name row s).result = .ok roster') :
    ∃ size gap advance cursor,
      (measurer name layout.participantFontSize s).result = .ok size ∧
      layout.participantGap = .ok gap ∧ size.width.add gap = .ok advance ∧
      roster.cursor.add advance = .ok cursor ∧
      roster' = { entries := roster.entries ++ [roster.newcomer name row size]
                  cursor := cursor } := by
  simp only [enter, Run.bind_result_ok, Run.liftM_eq_ofCalc, Run.ofCalc_result_ok,
    Measurer.ask_result, Run.pure_result, Except.ok.injEq] at h
  obtain ⟨size, hsize, gap, hgap, advance, hadvance, cursor, hcursor, rfl⟩ := h
  exact ⟨size, gap, advance, cursor, hsize, hgap, hadvance, hcursor, rfl⟩

/-- A mention that is taken note of has a name.  A known name has its span
extended; a new one is measured and entered at the cursor. -/
theorem mention_result_ok {m : Mention} {s : σ}
    (h : (mention measurer layout roster m s).result = .ok roster') :
    ∃ name, m.name = some name ∧
      ((roster.knows name ∧ roster' = roster.extend name m.row) ∨
        (¬ roster.knows name ∧
          (enter measurer layout roster name m.row s).result = .ok roster')) := by
  obtain ⟨row, - | name⟩ := m
  · cases h
  · refine ⟨name, rfl, ?_⟩
    by_cases hk : roster.knows name
    · simp only [mention, hk, if_true, Run.pure_result, Except.ok.injEq] at h
      exact .inl ⟨hk, h.symm⟩
    · simp only [mention, hk] at h
      exact .inr ⟨hk, h⟩

/-! ### The account of a roster -/

end Roster

/-- The participants `ps` are those of the mentions `ms`. -/
structure Records (ps : List Participant) (ms : List Mention) : Prop where
  names : ps.map Participant.name = (Mention.names ms).eraseDups
  index : ∀ (i : Nat) (p : Participant), ps[i]? = some p → p.index = i
  firstRow : ∀ p ∈ ps, IsLeast (Mention.rows ms p.name) p.firstRow
  lastRow : ∀ p ∈ ps, IsGreatest (Mention.rows ms p.name) p.lastRow

namespace Records

variable {roster roster' : Roster} {ms : List Mention}

theorem nil : Records [] [] where
  names := rfl
  index := by simp
  firstRow := by simp
  lastRow := by simp

/-- The label heights are no part of the account. -/
theorem withHeight {ps : List Participant} (h : Records ps ms) (height : Quantity) :
    Records (ps.map fun p => { p with labelHeight := height }) ms where
  names := by
    rw [← h.names, List.map_map]
    rfl
  index := by
    intro i p hp
    rw [List.getElem?_map, Option.map_eq_some_iff] at hp
    obtain ⟨q, hq, rfl⟩ := hp
    exact h.index i q hq
  firstRow := by
    intro p hp
    obtain ⟨q, hq, rfl⟩ := List.mem_map.mp hp
    exact h.firstRow q hq
  lastRow := by
    intro p hp
    obtain ⟨q, hq, rfl⟩ := List.mem_map.mp hp
    exact h.lastRow q hq

theorem knows_iff (h : Records roster.entries ms) {name : String} :
    roster.knows name ↔ name ∈ Mention.names ms := by
  rw [Roster.knows_iff, h.names, List.mem_eraseDups]

/-- A later mention of a known name. -/
theorem extend (h : Records roster.entries ms) {name : String} {row : Nat} (hk : roster.knows name)
    (hrow : ∀ m ∈ ms, m.row ≤ row) :
    Records (roster.extend name row).entries (ms ++ [⟨row, some name⟩]) := by
  -- no name is added
  have same_names : (roster.extend name row).entries.map Participant.name
      = roster.entries.map Participant.name := by
    simp only [Roster.extend, List.map_map]
    refine List.map_congr_left fun p _ => ?_
    simp only [Function.comp_apply]
    split <;> rfl
  refine ⟨?_, ?_, ?_, ?_⟩
  · rw [same_names, h.names, Mention.names_concat,
      eraseDups_concat_of_mem (h.knows_iff.mp hk)]
  · intro i p hp
    simp only [Roster.extend, List.getElem?_map, Option.map_eq_some_iff] at hp
    obtain ⟨q, hq, rfl⟩ := hp
    have := h.index i q hq
    split <;> exact this
  · intro p hp
    obtain ⟨q, hq, rfl⟩ := List.mem_map.mp hp
    have hq' := h.firstRow q hq
    -- of the name itself the first row stays, for the rows are ascending
    by_cases hn : q.name = name
    · rw [if_pos hn]
      subst hn
      refine ⟨Mention.rows_subset_concat _ _ _ hq'.1, fun k hmem => ?_⟩
      rcases Mention.mem_rows_concat hmem with hmem | rfl
      · exact hq'.2 hmem
      · exact Mention.le_of_mem_rows hrow hq'.1
    · rw [if_neg hn, Mention.rows_concat_of_ne hn]
      exact hq'
  · intro p hp
    obtain ⟨q, hq, rfl⟩ := List.mem_map.mp hp
    -- the last row becomes that of the new mention
    by_cases hn : q.name = name
    · rw [if_pos hn]
      subst hn
      refine ⟨Mention.mem_rows_concat_self ms row _, fun k hmem => ?_⟩
      rcases Mention.mem_rows_concat hmem with hmem | rfl
      · exact Mention.le_of_mem_rows hrow hmem
      · exact Int.le_refl _
    · rw [if_neg hn, Mention.rows_concat_of_ne hn]
      exact h.lastRow q hq

/-- The first mention of a name. -/
theorem enter (h : Records roster.entries ms) {name : String} {row : Nat}
    (hk : ¬ roster.knows name) (size : Size) :
    Records (roster.entries ++ [roster.newcomer name row size]) (ms ++ [⟨row, some name⟩]) := by
  have hnew : name ∉ Mention.names ms := mt h.knows_iff.mpr hk
  -- only the new row mentions the new name, and no old entry has it
  have only_row : ∀ {k : Int}, k ∈ Mention.rows (ms ++ [⟨row, some name⟩]) name → k = row := by
    intro k hmem
    rcases Mention.mem_rows_concat hmem with ⟨row', -, hmem⟩ | hk
    · exact absurd (Mention.mem_names.mpr ⟨row', hmem⟩) hnew
    · exact hk
  have old_ne : ∀ p ∈ roster.entries, p.name ≠ name := by
    rintro p hp rfl
    exact hk (Roster.knows_iff.mpr (List.mem_map_of_mem hp))
  refine ⟨?_, ?_, ?_, ?_⟩
  · rw [Mention.names_concat, eraseDups_concat_of_not_mem hnew, ← h.names]
    simp [Roster.newcomer]
  · intro i p hp
    rcases Nat.lt_trichotomy i roster.entries.length with hi | rfl | hi
    · rw [List.getElem?_append_left hi] at hp
      exact h.index i p hp
    · simp only [List.getElem?_concat_length, Option.some.injEq] at hp
      rw [← hp]
      rfl
    · rw [List.getElem?_eq_none (by simp; omega)] at hp
      cases hp
  · intro p hp
    rcases List.mem_append.mp hp with hp | hp
    · rw [Mention.rows_concat_of_ne (old_ne p hp)]
      exact h.firstRow p hp
    · obtain rfl := List.mem_singleton.mp hp
      refine ⟨Mention.mem_rows_concat_self ms row name, fun k hmem => ?_⟩
      rw [only_row hmem]
      exact Int.le_refl _
  · intro p hp
    rcases List.mem_append.mp hp with hp | hp
    · rw [Mention.rows_concat_of_ne (old_ne p hp)]
      exact h.lastRow p hp
    · obtain rfl := List.mem_singleton.mp hp
      refine ⟨Mention.mem_rows_concat_self ms row name, fun k hmem => ?_⟩
      rw [only_row hmem]
      exact Int.le_refl _

/-- One mention keeps the account, if its row is not above the earlier ones. -/
theorem mention (h : Records roster.entries ms) {m : Mention} {s : σ}
    (hrow : ∀ m' ∈ ms, m'.row ≤ m.row)
    (hm : (Roster.mention measurer layout roster m s).result = .ok roster') :
    Records roster'.entries (ms ++ [m]) := by
  obtain ⟨row, oname⟩ := m
  obtain ⟨name, hname, ⟨hk, rfl⟩ | ⟨hk, hm⟩⟩ := Roster.mention_result_ok hm
  · obtain rfl : oname = some name := hname
    exact h.extend hk hrow
  · obtain rfl : oname = some name := hname
    obtain ⟨size, gap, advance, cursor, -, -, -, -, rfl⟩ := Roster.enter_result_ok hm
    exact h.enter hk size

end Records

/-! ### A whole pass -/

/-- The account holds after every pass that ends without a fault, over
mentions whose rows do not decrease. -/
theorem records_of_foldlM {start roster : Roster} (hstart : start.entries = []) {s : σ}
    {ms : List Mention} (hsorted : ms.Pairwise fun m m' => m.row ≤ m'.row)
    (h : (ms.foldlM (Roster.mention measurer layout) start s).result = .ok roster) :
    Records roster.entries ms := by
  -- the account of all but the last mention carries over to the last one
  induction ms using List.reverseRecOn generalizing roster with
  | nil =>
      obtain rfl : start = roster := by simpa using h
      rw [hstart]
      exact Records.nil
  | append_singleton ms m ih =>
      rw [List.foldlM_append, Run.bind_result_ok] at h
      obtain ⟨before, hbefore, h⟩ := h
      rw [List.foldlM_cons, Run.bind_result_ok] at h
      obtain ⟨roster', hm, hr⟩ := h
      obtain rfl : roster' = roster := by simpa using hr
      rw [List.pairwise_append] at hsorted
      have hrow : ∀ m' ∈ ms, m'.row ≤ m.row := fun m' hm' =>
        hsorted.2.2 m' hm' m (by simp)
      exact (ih hsorted.1 hbefore).mention hrow hm

/-- The participants of a roster are its entries, with one label height. -/
theorem Roster.participants_eq_map (roster : Roster) :
    ∃ height, roster.participants =
      roster.entries.map fun p => { p with labelHeight := height } := by
  -- without an entry there is no tallest label, and no label to change
  rcases h : roster.entries with - | ⟨first, rest⟩
  · exact ⟨.int 0, by simp [Roster.participants, h]⟩
  · exact ⟨_, by simp only [Roster.participants, h]; rfl⟩

/-- The participants are the entries of the last roster, in boxes of one height. -/
theorem resolveParticipants_result_ok {lines : List Line} {s : σ} {ps : List Participant}
    (h : (resolveParticipants measurer layout lines s).result = .ok ps) :
    ∃ start roster, layout.inset = .ok start ∧
      ((mentions lines).foldlM (Roster.mention measurer layout) { cursor := start } s).result
        = .ok roster ∧
      ps = roster.participants := by
  simp only [resolveParticipants, Run.bind_result_ok, Run.liftM_eq_ofCalc,
    Run.ofCalc_result_ok] at h
  obtain ⟨start, hstart, roster, hroster, h⟩ := h
  refine ⟨start, roster, hstart, hroster, ?_⟩
  split at h
  · next hempty =>
      rw [List.isEmpty_iff.mp hempty]
      exact (Except.ok.inj h).symm
  · exact (Except.ok.inj h).symm

/-- The resolved participants are those of the mentions of the lines. -/
theorem records_of_resolveParticipants {lines : List Line} {s : σ} {ps : List Participant}
    (h : (resolveParticipants measurer layout lines s).result = .ok ps) :
    Records ps (mentions lines) := by
  obtain ⟨start, roster, -, hroster, rfl⟩ := resolveParticipants_result_ok h
  obtain ⟨height, hheight⟩ := roster.participants_eq_map
  rw [hheight]
  exact (records_of_foldlM rfl (mentions_sorted lines) hroster).withHeight height

theorem labelHeight_of_resolveParticipants {lines : List Line} {ps : List Participant} {s : σ}
    (h : (resolveParticipants measurer layout lines s).result = .ok ps) :
    ∃ height, ∀ p ∈ ps, p.labelHeight = height := by
  obtain ⟨_, roster, -, -, rfl⟩ := resolveParticipants_result_ok h
  obtain ⟨height, hheight⟩ := roster.participants_eq_map
  refine ⟨height, fun p hp => ?_⟩
  rw [hheight] at hp
  obtain ⟨q, -, rfl⟩ := List.mem_map.mp hp
  rfl

end SequenceChart
