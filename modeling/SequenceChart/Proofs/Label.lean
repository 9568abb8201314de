/-
SequenceChart/Proofs/Label.lean

The labels of the participants, as they were measured.

A participant is entered with the size that its name is measured at, and no
later mention changes that (`Roster.Measured`).  In the end the widths are kept
as they are (`answers_of_resolveParticipants`), and of the heights the greatest
is given to all labels (`highest_of_resolveParticipants`).  Both are said of
names, without the order in which they were met: for a measurer that answers one
question in one way they do not depend on it.
-/
import SequenceChart.Proofs.Continuation
import SequenceChart.Proofs.Tiling

namespace SequenceChart

variable {σ : Type} {measurer : Measurer σ} {layout : Layout}

/-! ### Measured sizes -/

/-- The size is what the measurer answers about a text, from one state at
least. -/
def Measurer.Answers (measurer : Measurer σ) (fontSize : Quantity) (text : String) (size : Size) :
    Prop :=
  ∃ s, (measurer text fontSize s).result = .ok size

/-- A pure measurer has one answer at most. -/
theorem Measurer.Pure.answers_unique (hpure : measurer.Pure) {fontSize : Quantity} {text : String}
    {size size' : Size} (h : measurer.Answers fontSize text size)
    (h' : measurer.Answers fontSize text size') : size = size' := by
  obtain ⟨s, h⟩ := h
  obtain ⟨s', h'⟩ := h'
  rw [hpure text fontSize s s', h'] at h
  exact (Except.ok.inj h).symm

/-- A measurer that says the same from every state answers that. -/
theorem Measurer.answers_iff {fontSize : Quantity} {text : String} {size size' : Size}
    (h : ∀ s, (measurer text fontSize s).result = .ok size') (s : σ) :
    measurer.Answers fontSize text size ↔ size = size' := by
  constructor
  · rintro ⟨s', hs'⟩
    exact Except.ok.inj (hs'.symm.trans (h s'))
  · rintro rfl
    exact ⟨s, h s⟩

/-! ### The pass over the participants -/

namespace Roster

variable {roster roster' : Roster}

/-- Every entry has the size that its name was measured at. -/
def Measured (measurer : Measurer σ) (fontSize : Quantity) (roster : Roster) : Prop :=
  ∀ p ∈ roster.entries, measurer.Answers fontSize p.name ⟨p.labelWidth, p.labelHeight⟩

theorem Measured.mention (h : roster.Measured measurer layout.participantFontSize) {m : Mention}
    {s : σ} (hm : (Roster.mention measurer layout roster m s).result = .ok roster') :
    roster'.Measured measurer layout.participantFontSize := by
  obtain ⟨name, -, ⟨-, rfl⟩ | ⟨-, hm⟩⟩ := mention_result_ok hm
  · intro p hp
    obtain ⟨q, hq, rfl⟩ := List.mem_map.mp hp
    split <;> exact h q hq
  · obtain ⟨size, gap, advance, cursor, hsize, -, -, -, rfl⟩ := enter_result_ok hm
    intro p hp
    rcases List.mem_append.mp hp with hp | hp
    · exact h p hp
    · obtain rfl := List.mem_singleton.mp hp
      exact ⟨s, hsize⟩

theorem Measured.foldlM (h : roster.Measured measurer layout.participantFontSize)
    {ms : List Mention} {s : σ}
    (hpass : (ms.foldlM (Roster.mention measurer layout) roster s).result = .ok roster') :
    roster'.Measured measurer layout.participantFontSize :=
  Run.foldlM_invariant (fun _ _ _ _ _ h hmention => h.mention hmention) h hpass

end Roster

/-! ### One height for all -/

theorem isGreatest_foldl_max (first : Int) (rest : List Int) :
    IsGreatest {n | n ∈ first :: rest} (rest.foldl Max.max first) :=
  ⟨List.max_mem (List.cons_ne_nil first rest), fun _ hn => List.le_max_of_mem hn⟩

/-- The participants of a roster are its entries with the greatest height among
them, if heights are integers. -/
theorem Roster.labelHeight_participants {roster : Roster}
    (h : ∀ p ∈ roster.entries, p.labelHeight.IsInt) :
    ∃ height : Int, roster.participants =
        roster.entries.map (fun p => { p with labelHeight := .int height }) ∧
      (roster.entries ≠ [] →
        IsGreatest {n | ∃ p ∈ roster.entries, p.labelHeight = .int n} height) := by
  rcases hentries : roster.entries with - | ⟨first, rest⟩
  · exact ⟨0, by simp [Roster.participants, hentries], fun hne => absurd rfl hne⟩
  have hfirst : first.labelHeight.IsInt := h first (by simp [hentries])
  have hrest : ∀ q ∈ rest.map Participant.labelHeight, q.IsInt := by
    intro q hq
    obtain ⟨p, hp, rfl⟩ := List.mem_map.mp hq
    exact h p (by simp [hentries, hp])
  refine ⟨((rest.map Participant.labelHeight).map Quantity.toInt).foldl Max.max
    first.labelHeight.toInt, ?_, fun _ => ?_⟩
  · simp only [Roster.participants, hentries, Quantity.maximum_isInt hfirst hrest]
  convert isGreatest_foldl_max first.labelHeight.toInt
    ((rest.map Participant.labelHeight).map Quantity.toInt) using 1
  -- the heights of the entries, as integers
  ext n
  have hint : ∀ p ∈ first :: rest, p.labelHeight = .int p.labelHeight.toInt :=
    fun p hp => (h p (hentries ▸ hp)).eq
  rw [← List.map_cons (f := Quantity.toInt), ← List.map_cons (f := Participant.labelHeight),
    List.map_map]
  constructor
  · rintro ⟨p, hp, hn⟩
    exact List.mem_map.mpr ⟨p, hp, by rw [Function.comp_apply, hn]; rfl⟩
  · intro hn
    obtain ⟨p, hp, rfl⟩ := List.mem_map.mp hn
    exact ⟨p, hp, hint p hp⟩

/-! ### Resolved participants -/

/-- The participants have the names that are mentioned, in the order of first mention. -/
theorem map_name_of_resolveParticipants {lines : List Line} {ps : List Participant} {s : σ}
    (h : (resolveParticipants measurer layout lines s).result = .ok ps) :
    ps.map Participant.name = Line.firstMentions lines := by
  rw [(records_of_resolveParticipants h).names, eraseDups_names_mentions]

section

variable {lines : List Line} {ps : List Participant} {s : σ}
  (h : (resolveParticipants measurer layout lines s).result = .ok ps)
include h

/-- The participants come from entries that have the sizes of their names. -/
theorem exists_measured_of_resolveParticipants :
    ∃ roster : Roster, roster.Measured measurer layout.participantFontSize ∧
      roster.entries.map Participant.name = Line.firstMentions lines ∧
      ps = roster.participants := by
  have hnames := map_name_of_resolveParticipants h
  obtain ⟨start, roster, -, hpass, rfl⟩ := resolveParticipants_result_ok h
  have hnone : ({ cursor := start } : Roster).Measured measurer layout.participantFontSize := by
    simp [Roster.Measured]
  obtain ⟨height, hheight⟩ := roster.participants_eq_map
  refine ⟨roster, hnone.foldlM hpass, ?_, rfl⟩
  rw [← hnames, hheight, List.map_map]
  rfl

/-- Each label is as wide as its name was measured. -/
theorem answers_of_resolveParticipants : ∀ p ∈ ps, ∃ height,
    measurer.Answers layout.participantFontSize p.name ⟨p.labelWidth, height⟩ := by
  obtain ⟨roster, hmeasured, -, rfl⟩ := exists_measured_of_resolveParticipants h
  obtain ⟨height, hheight⟩ := roster.participants_eq_map
  intro p hp
  rw [hheight] at hp
  obtain ⟨q, hq, rfl⟩ := List.mem_map.mp hp
  exact ⟨q.labelHeight, hmeasured q hq⟩

/-- All labels are as high as the highest name, if each name has one size and
this is an integer high. -/
theorem highest_of_resolveParticipants
    (hunique : ∀ name ∈ Line.firstMentions lines, ∀ size size',
      measurer.Answers layout.participantFontSize name size →
      measurer.Answers layout.participantFontSize name size' → size = size')
    (hint : ∀ name ∈ Line.firstMentions lines, ∀ size,
      measurer.Answers layout.participantFontSize name size → size.height.IsInt) :
    ∃ height : Int, (∀ p ∈ ps, p.labelHeight = .int height) ∧
      (ps ≠ [] → IsGreatest {n | ∃ name ∈ Line.firstMentions lines, ∃ width,
        measurer.Answers layout.participantFontSize name ⟨width, .int n⟩} height) := by
  obtain ⟨roster, hmeasured, hentries, rfl⟩ := exists_measured_of_resolveParticipants h
  -- the names of the roster are those that were mentioned, each with its answer
  have hname : ∀ q ∈ roster.entries, q.name ∈ Line.firstMentions lines := fun q hq =>
    hentries ▸ List.mem_map_of_mem hq
  obtain ⟨height, hparticipants, hgreatest⟩ := Roster.labelHeight_participants
    fun q hq => hint q.name (hname q hq) _ (hmeasured q hq)
  rw [hparticipants]
  refine ⟨height, fun p hp => ?_, fun hne => ?_⟩
  · obtain ⟨q, -, rfl⟩ := List.mem_map.mp hp
    rfl
  · convert hgreatest (by simpa using hne) using 1
    ext n
    constructor
    · rintro ⟨name, hmem, width, hanswer⟩
      obtain ⟨q, hq, rfl⟩ := List.mem_map.mp (hentries ▸ hmem)
      exact ⟨q, hq, congrArg Size.height (hunique q.name hmem _ _ (hmeasured q hq) hanswer)⟩
    · rintro ⟨q, hq, hn⟩
      exact ⟨q.name, hname q hq, q.labelWidth, hn ▸ hmeasured q hq⟩

/-- The heights of a pure measurer that measures in whole numbers. -/
theorem Measurer.Pure.highest_of_resolveParticipants (hpure : measurer.Pure)
    (hm : measurer.IsInt) : ∃ height : Int, (∀ p ∈ ps, p.labelHeight = .int height) ∧
      (ps ≠ [] → IsGreatest {n | ∃ name ∈ Line.firstMentions lines, ∃ width,
        measurer.Answers layout.participantFontSize name ⟨width, .int n⟩} height) :=
  SequenceChart.highest_of_resolveParticipants h (fun _ _ _ _ => hpure.answers_unique)
    fun name _ size ⟨s, hs⟩ => (hm name _ s size hs).height

end

end SequenceChart
