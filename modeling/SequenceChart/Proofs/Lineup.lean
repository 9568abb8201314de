/-
SequenceChart/Proofs/Lineup.lean

The participants of any lines, described without the pass that finds them.

`Lineup` says of each participant where in the lines its name stands and how its
label was measured: its index counts the names that are mentioned before, its
span reaches from the first to the last row that names it, and its place is that
of its neighbour on the left, moved on by the neighbour's label and one gap in
the arithmetic of the chart, rounded where that rounds.  Main result:
`lineup_resolveParticipants`, for all lines, also those put together by hand,
that name both endpoints of their interactions, and for sizes of any kind, as
long as the arithmetic does not fail.

Names, indices and spans come from `Records`, the labels from what was measured
(`answers_of_resolveParticipants`, `highest_of_resolveParticipants`); the places
are followed through the pass by `Roster.Placed`.
-/
import SequenceChart.Proofs.Label

namespace SequenceChart

variable {σ : Type} {measurer : Measurer σ} {layout : Layout}

/-! ### Places -/

/-- Where the next participant goes: behind the label of this one and a gap. -/
def Layout.nextPlace (layout : Layout) (p : Participant) : Calc Quantity := do
  let gap ← layout.participantGap
  let advance ← p.labelWidth.add gap
  p.x.add advance

/-- Each participant stands in the next place of the one before it, the first one
at `start`. -/
structure Placed (layout : Layout) (start : Quantity) (ps : List Participant) : Prop where
  first : ∀ p, ps[0]? = some p → p.x = start
  next : ∀ (i : Nat) (p q : Participant), ps[i]? = some p → ps[i + 1]? = some q →
    layout.nextPlace p = .ok q.x

namespace Placed

variable {start : Quantity} {ps : List Participant}

/-- Only places and label widths matter. -/
theorem map {f : Participant → Participant} (hx : ∀ p, (f p).x = p.x)
    (hwidth : ∀ p, (f p).labelWidth = p.labelWidth) (h : Placed layout start ps) :
    Placed layout start (ps.map f) where
  first := by
    intro p hp
    rw [List.getElem?_map, Option.map_eq_some_iff] at hp
    obtain ⟨p, hp, rfl⟩ := hp
    rw [hx, h.first p hp]
  next := by
    intro i p q hp hq
    rw [List.getElem?_map, Option.map_eq_some_iff] at hp hq
    obtain ⟨p, hp, rfl⟩ := hp
    obtain ⟨q, hq, rfl⟩ := hq
    rw [Layout.nextPlace, hx, hwidth, hx]
    exact h.next i p q hp hq

/-- One more participant in the next place of the last one. -/
theorem concat (h : Placed layout start ps) {q : Participant} (hfirst : ps = [] → q.x = start)
    (hnext : ∀ p, ps.getLast? = some p → layout.nextPlace p = .ok q.x) :
    Placed layout start (ps ++ [q]) where
  first := by
    intro p hp
    rcases ps with - | ⟨p', ps⟩
    · obtain rfl : q = p := Option.some.inj hp
      exact hfirst rfl
    · exact h.first p hp
  next := by
    intro i p q' hp hq'
    -- the new participant is at most the second one of a pair
    rcases Nat.lt_trichotomy (i + 1) ps.length with hi | hi | hi
    · rw [List.getElem?_append_left (Nat.lt_of_succ_lt hi)] at hp
      rw [List.getElem?_append_left hi] at hq'
      exact h.next i p q' hp hq'
    · rw [hi, List.getElem?_concat_length] at hq'
      obtain rfl := Option.some.inj hq'
      rw [List.getElem?_append_left (by omega)] at hp
      refine hnext p ?_
      rw [List.getLast?_eq_getElem?, ← hi]
      exact hp
    · rw [List.getElem?_eq_none (by simp; omega)] at hq'
      cases hq'

end Placed

namespace Roster

variable {roster roster' : Roster} {start : Quantity}

/-- The entries stand in their places, and the cursor in the next one. -/
structure Placed (layout : Layout) (start : Quantity) (roster : Roster) : Prop where
  entries : SequenceChart.Placed layout start roster.entries
  empty : roster.entries = [] → roster.cursor = start
  cursor : ∀ p, roster.entries.getLast? = some p → layout.nextPlace p = .ok roster.cursor

/-- To extend a span moves nobody. -/
theorem Placed.extend (h : roster.Placed layout start) (name : String) (row : Nat) :
    (roster.extend name row).Placed layout start := by
  -- only the row is changed, neither the place nor the width
  have hx : ∀ p : Participant,
      (if p.name = name then { p with lastRow := (row : Int) } else p).x = p.x := by
    intro p
    split <;> rfl
  have hwidth : ∀ p : Participant,
      (if p.name = name then { p with lastRow := (row : Int) } else p).labelWidth =
        p.labelWidth := by
    intro p
    split <;> rfl
  refine ⟨h.entries.map hx hwidth, fun hnil => h.empty ?_, fun p hp => ?_⟩
  · exact List.map_eq_nil_iff.mp hnil
  · rw [Roster.extend, List.getLast?_map, Option.map_eq_some_iff] at hp
    obtain ⟨p, hp, rfl⟩ := hp
    rw [Layout.nextPlace, hx, hwidth]
    exact h.cursor p hp

theorem Placed.mention (h : roster.Placed layout start) {m : Mention} {s : σ}
    (hm : (Roster.mention measurer layout roster m s).result = .ok roster') :
    roster'.Placed layout start := by
  obtain ⟨name, -, ⟨-, rfl⟩ | ⟨-, hm⟩⟩ := mention_result_ok hm
  · exact h.extend name m.row
  · obtain ⟨size, gap, advance, cursor, -, hgap, hadvance, hcursor, rfl⟩ := enter_result_ok hm
    refine ⟨h.entries.concat h.empty h.cursor, fun hnil => ?_, fun p hp => ?_⟩
    · exact absurd hnil (by simp)
    · rw [List.getLast?_concat] at hp
      obtain rfl := Option.some.inj hp
      exact bind_eq_ok.mpr ⟨gap, hgap, bind_eq_ok.mpr ⟨advance, hadvance, hcursor⟩⟩

end Roster

/-- The participants stand in their places, from the inset on. -/
theorem placed_resolveParticipants {lines : List Line} {ps : List Participant} {s : σ}
    (h : (resolveParticipants measurer layout lines s).result = .ok ps) :
    ∃ start, layout.inset = .ok start ∧ Placed layout start ps := by
  obtain ⟨start, roster, hstart, hpass, rfl⟩ := resolveParticipants_result_ok h
  have hnone : ({ cursor := start } : Roster).Placed layout start :=
    ⟨⟨by simp, by simp⟩, fun _ => rfl, by simp⟩
  have hplaced : roster.Placed layout start :=
    Run.foldlM_invariant (fun _ _ _ _ _ h hmention => h.mention hmention) hnone hpass
  obtain ⟨height, hheight⟩ := roster.participants_eq_map
  rw [hheight]
  exact ⟨start, hstart, hplaced.entries.map (fun _ => rfl) fun _ => rfl⟩

/-! ### The lineup -/

/-- The rows of the interaction lines that name a participant, as their sender or
as their receiver. -/
def Line.rowsNaming (lines : List Line) (name : String) : Set Int :=
  {k | ∃ (row : Nat) (line : Line), k = row ∧ (interactions lines)[row]? = some line ∧
    (line.sender = some name ∨ line.receiver = some name)}

theorem Mention.rows_mentions (lines : List Line) (name : String) :
    rows (mentions lines) name = Line.rowsNaming lines name := by
  ext k
  simp only [rows, Line.rowsNaming, Set.mem_ofPred_eq, mem_mentions, exists_and_left]

/-- The participants `ps` of the lines, for names of the given sizes. -/
structure Lineup (layout : Layout) (sizes : String → Size) (lines : List Line)
    (ps : List Participant) : Prop where
  /-- One participant for each name, in the order of first mention. -/
  names : ps.map Participant.name = Line.firstMentions lines
  nodup : (ps.map Participant.name).Nodup
  /-- Who is not an endpoint of an interaction does not take part. -/
  takesPart : ∀ name, name ∈ ps.map Participant.name ↔
    ∃ line ∈ Line.interactions lines, line.sender = some name ∨ line.receiver = some name
  index : ∀ (i : Nat) (p : Participant), ps[i]? = some p → p.index = i
  firstRow : ∀ p ∈ ps, IsLeast (Line.rowsNaming lines p.name) p.firstRow
  lastRow : ∀ p ∈ ps, IsGreatest (Line.rowsNaming lines p.name) p.lastRow
  labelWidth : ∀ p ∈ ps, p.labelWidth = (sizes p.name).width
  first : ∀ p, ps[0]? = some p → layout.inset = .ok p.x
  next : ∀ (i : Nat) (p q : Participant), ps[i]? = some p → ps[i + 1]? = some q →
    layout.nextPlace p = .ok q.x
  /-- All labels are equally high. -/
  labelHeight : ∃ height, ∀ p ∈ ps, p.labelHeight = height
  /-- In whole numbers they are as high as the highest name. -/
  highest : (∀ name ∈ Line.firstMentions lines, (sizes name).height.IsInt) → ∀ p ∈ ps,
    ∃ height : Int, p.labelHeight = .int height ∧
      IsGreatest {n | ∃ name ∈ Line.firstMentions lines, (sizes name).height = .int n} height

variable {sizes : String → Size} {lines : List Line} {ps : List Participant}

section

variable (hsizes : ∀ name ∈ Line.firstMentions lines, ∀ s,
  (measurer name layout.participantFontSize s).result = .ok (sizes name))
include hsizes

/-- What the pass gives is the lineup of its lines. -/
theorem lineup_of_result_ok {s : σ}
    (h : (resolveParticipants measurer layout lines s).result = .ok ps) :
    Lineup layout sizes lines ps := by
  -- on the names of the chart the measurer is the function `sizes`
  have hanswers : ∀ name ∈ Line.firstMentions lines, ∀ size,
      measurer.Answers layout.participantFontSize name size ↔ size = sizes name :=
    fun name hname _ => Measurer.answers_iff (hsizes name hname) s
  have hrecords := records_of_resolveParticipants h
  have hnames := map_name_of_resolveParticipants h
  have hmem : ∀ p ∈ ps, p.name ∈ Line.firstMentions lines := fun p hp =>
    hnames ▸ List.mem_map_of_mem hp
  obtain ⟨start, hstart, hplaced⟩ := placed_resolveParticipants h
  refine
    { names := hnames
      nodup := hrecords.names_nodup
      takesPart := fun name => by rw [hnames, Line.mem_firstMentions]
      index := hrecords.index
      firstRow := fun p hp => Mention.rows_mentions lines p.name ▸ hrecords.firstRow p hp
      lastRow := fun p hp => Mention.rows_mentions lines p.name ▸ hrecords.lastRow p hp
      labelWidth := ?_
      first := fun p hp => hplaced.first p hp ▸ hstart
      next := hplaced.next
      labelHeight := labelHeight_of_resolveParticipants h
      highest := ?_ }
  · intro p hp
    obtain ⟨height, hanswer⟩ := answers_of_resolveParticipants h p hp
    exact congrArg Size.width ((hanswers p.name (hmem p hp) _).mp hanswer)
  -- the greatest height that is answered is the greatest one of `sizes`
  · intro hint p hp
    have hunique : ∀ name ∈ Line.firstMentions lines, ∀ size size',
        measurer.Answers layout.participantFontSize name size →
        measurer.Answers layout.participantFontSize name size' → size = size' := by
      intro name hname size size' hsize hsize'
      rw [(hanswers name hname size).mp hsize, (hanswers name hname size').mp hsize']
    obtain ⟨height, hheight, hgreatest⟩ := highest_of_resolveParticipants h hunique
      fun name hname size hsize => (hanswers name hname size).mp hsize ▸ hint name hname
    refine ⟨height, hheight p hp, ?_⟩
    convert hgreatest (List.ne_nil_of_mem hp) using 1
    ext n
    constructor
    · rintro ⟨name, hname, hn⟩
      exact ⟨name, hname, (sizes name).width, (hanswers name hname _).mpr (hn ▸ rfl)⟩
    · rintro ⟨name, hname, width, hanswer⟩
      exact ⟨name, hname, (hanswers name hname _).mp hanswer ▸ rfl⟩

/-- **Everyone takes their place in order**: for lines that name the endpoints of
their interactions, and names that can be measured, the participants are those of
the lineup, unless the arithmetic fails. -/
theorem lineup_resolveParticipants (hnamed : Line.Named lines) (s : σ)
    (harith : ∀ e, (resolveParticipants measurer layout lines s).result ≠
      .error (.arithmetic e)) :
    ∃ ps, (resolveParticipants measurer layout lines s).result = .ok ps ∧
      Lineup layout sizes lines ps := by
  have hfault : (resolveParticipants measurer layout lines).FailsWith
      fun fault => ∃ e, fault = .arithmetic e := by
    refine failsWith_resolveParticipants (fun e => ⟨e, rfl⟩) hnamed fun name hname s fault h => ?_
    rw [hsizes name hname s] at h
    cases h
  rcases hresult : (resolveParticipants measurer layout lines s).result with fault | ps
  · obtain ⟨e, rfl⟩ := hfault s fault hresult
    exact absurd hresult (harith e)
  · exact ⟨ps, rfl, lineup_of_result_ok hsizes hresult⟩

end

/-- Lines put together by hand.  The comment has endpoints that do not count, and
the numbers are in no order. -/
def strayLines : List Line :=
  [{ number := 3, text := "#", kind := .comment, sender := some "Ghost", receiver := some "Bo" },
    { number := 9, text := "", kind := .interaction, sender := some "Bo", receiver := some "Bo" },
    { number := 9, text := "", kind := .invalid, sender := some "Ann", message := some "Ghost" },
    { number := 1, text := "", kind := .interactionWithMessage, sender := some "Ann"
      receiver := some "Bo", message := some "Ghost" }]

/-- `Bo` speaks to itself first, in a row of its own. -/
theorem lineup_resolveParticipants_stray : ∃ ps,
    (resolveParticipants (.fixedWidth 10 20) { horizontalGap := .float 0.5 } strayLines ()).result =
      .ok ps ∧
    ps.map (fun p => (p.name, p.firstRow, p.lastRow)) = [("Bo", 0, 1), ("Ann", 1, 1)] ∧
    Lineup { horizontalGap := .float 0.5 } (fun name => ⟨.int (10 * name.length), .int 20⟩)
      strayLines ps := by
  have hrows : (resolveParticipants (.fixedWidth 10 20) { horizontalGap := .float 0.5 } strayLines
      ()).result.map (List.map fun p => (p.name, p.firstRow, p.lastRow)) =
        .ok [("Bo", 0, 1), ("Ann", 1, 1)] := by
    decide +kernel
  obtain ⟨ps, hps, hrows⟩ := map_eq_ok.mp hrows
  have hsizes : ∀ name ∈ Line.firstMentions strayLines, ∀ s : Unit,
      (Measurer.fixedWidth 10 20 name
        ({ horizontalGap := .float 0.5 } : Layout).participantFontSize s).result =
          .ok ⟨.int (10 * name.length), .int 20⟩ := fun _ _ _ => rfl
  obtain ⟨qs, hqs, hlineup⟩ := lineup_resolveParticipants hsizes (by decide) () fun e h => by
    rw [hps] at h
    cases h
  obtain rfl : ps = qs := Except.ok.inj (hps.symm.trans hqs)
  exact ⟨ps, hps, hrows, hlineup⟩

end SequenceChart
