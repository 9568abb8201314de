/-
SequenceChart/Proofs/Continuation.lean

Lines that are added at the end of a chart.

A chart is read from its first line to its last, and what a line has placed is
never moved by a later one.  So the diagram of more lines continues that of
fewer (`Diagram.Continues`): the participants stay where they are, and only
their spans grow; new ones come after them, in later rows; the rows keep their
arrows, and the issues their order.  Main result: `Diagram.continues_of_build`,
for every measurer that answers one question in one way, in whole numbers or
not.

The pass over the participants is followed by a relation on participants that
every single mention respects (`Keeps`, `Roster.keeps_mention`).  It leaves the
ends of the spans open; those are read off the mentions, whose rows are the
earlier ones and, behind them, those of the new lines (`mem_rows_append`).
-/
import SequenceChart.Proofs.Coherence

namespace SequenceChart

variable {σ : Type} {measurer : Measurer σ} {layout : Layout}

/-- Whether a measurer gives one answer to one question, whatever it was asked
before. -/
def Measurer.Pure (measurer : Measurer σ) : Prop :=
  ∀ text fontSize, (measurer text fontSize).Steady

theorem Measurer.pure_ofFunction (f : String → Quantity → Except Fault Size) :
    (ofFunction f : Measurer σ).Pure := fun _ _ _ _ => rfl

/-! ### Participants that keep their places -/

/-- Every participant of `ps` stands in its place among `qs`, the same but for
the last row of its span and the height of its label. -/
def Keeps (ps qs : List Participant) : Prop :=
  ∀ (i : Nat) (p : Participant), ps[i]? = some p →
    ∃ row height, qs[i]? = some { p with lastRow := row, labelHeight := height }

namespace Keeps

variable {ps qs rs : List Participant}

theorem refl (ps : List Participant) : Keeps ps ps :=
  fun _ p hp => ⟨p.lastRow, p.labelHeight, hp⟩

theorem trans (h : Keeps ps qs) (h' : Keeps qs rs) : Keeps ps rs := by
  intro i p hp
  obtain ⟨row, height, hq⟩ := h i p hp
  exact h' i { p with lastRow := row, labelHeight := height } hq

theorem length_le (h : Keeps ps qs) : ps.length ≤ qs.length := by
  by_contra hlt
  have hi : qs.length < ps.length := Nat.lt_of_not_le hlt
  obtain ⟨row, height, hq⟩ := h _ _ (List.getElem?_eq_getElem hi)
  rw [List.getElem?_eq_none (Nat.le_refl _)] at hq
  cases hq

end Keeps

namespace Roster

variable {roster roster' : Roster} {ms : List Mention}

theorem keeps_extend (roster : Roster) (name : String) (row : Nat) :
    Keeps roster.entries (roster.extend name row).entries := by
  intro i p hp
  by_cases hn : p.name = name
  · exact ⟨row, p.labelHeight, by simp [extend, hp, hn]⟩
  · exact ⟨p.lastRow, p.labelHeight, by simp [extend, hp, hn]⟩

/-- No mention moves a participant that is there already. -/
theorem keeps_mention {m : Mention} {s : σ}
    (h : (mention measurer layout roster m s).result = .ok roster') :
    Keeps roster.entries roster'.entries := by
  obtain ⟨name, -, ⟨-, rfl⟩ | ⟨-, h⟩⟩ := mention_result_ok h
  · exact keeps_extend roster name m.row
  · obtain ⟨size, gap, advance, cursor, -, -, -, -, rfl⟩ := enter_result_ok h
    intro i p hp
    have hi : i < roster.entries.length := (List.getElem?_eq_some_iff.mp hp).1
    exact ⟨p.lastRow, p.labelHeight, by rw [List.getElem?_append_left hi, hp]⟩

/-- A pass keeps who was there before it. -/
theorem keeps_foldlM {s : σ}
    (h : (ms.foldlM (mention measurer layout) roster s).result = .ok roster') :
    Keeps roster.entries roster'.entries := by
  refine Run.foldlM_invariant (I := fun r => Keeps roster.entries r.entries) ?_ (Keeps.refl _) h
  intro r m _ s r' hr hm
  exact hr.trans (keeps_mention hm)

/-- The participants of a roster are its entries, but for the label height. -/
theorem keeps_participants (roster : Roster) :
    Keeps roster.entries roster.participants ∧ Keeps roster.participants roster.entries := by
  obtain ⟨height, hheight⟩ := roster.participants_eq_map
  rw [hheight]
  constructor
  · intro i p hp
    exact ⟨p.lastRow, height, by rw [List.getElem?_map, hp]; rfl⟩
  · intro i p hp
    rw [List.getElem?_map, Option.map_eq_some_iff] at hp
    obtain ⟨entry, hentry, rfl⟩ := hp
    exact ⟨entry.lastRow, entry.labelHeight, hentry⟩

/-- With a pure measurer the state does not matter. -/
theorem steady_mention (hpure : measurer.Pure) (roster : Roster) (m : Mention) :
    (mention measurer layout roster m).Steady := by
  obtain ⟨row, - | name⟩ := m
  · exact Run.Steady.fail _
  · unfold mention
    dsimp only
    split
    · exact Run.Steady.pure _
    · refine Run.Steady.bind (fun s s' => hpure name _ s s') fun size => ?_
      refine (Run.Steady.ofCalc _).bind fun gap => ?_
      refine (Run.Steady.ofCalc _).bind fun advance => ?_
      exact (Run.Steady.ofCalc _).bind fun cursor => Run.Steady.pure _

end Roster

section

variable {lines more : List Line} {ps qs : List Participant}

/-- With more lines every participant keeps its place. -/
theorem keeps_resolveParticipants (hpure : measurer.Pure) {s s' : σ}
    (hps : (resolveParticipants measurer layout lines s).result = .ok ps)
    (hqs : (resolveParticipants measurer layout (lines ++ more) s').result = .ok qs) :
    Keeps ps qs := by
  obtain ⟨start, roster, hstart, hroster, rfl⟩ := resolveParticipants_result_ok hps
  obtain ⟨start', roster', hstart', hroster', rfl⟩ := resolveParticipants_result_ok hqs
  obtain rfl : start = start' := Except.ok.inj (hstart.symm.trans hstart')
  -- the longer pass goes through the roster that the shorter one ends with
  obtain ⟨rest, hrest⟩ := mentions_isPrefix lines more
  rw [← hrest, List.foldlM_append, Run.bind_result_ok] at hroster'
  obtain ⟨between, hbetween, hroster'⟩ := hroster'
  have hsteady : ((mentions lines).foldlM (Roster.mention measurer layout)
      { cursor := start }).Steady := Run.Steady.foldlM (Roster.steady_mention hpure) _
  have hsame := hsteady s' s
  rw [hbetween, hroster] at hsame
  obtain rfl : between = roster := Except.ok.inj hsame
  exact (between.keeps_participants.2.trans (Roster.keeps_foldlM hroster')).trans
    roster'.keeps_participants.1

/-! ### Rows -/

/-- The rows that mention a name are the earlier ones and those of the new
lines, counted on. -/
theorem mem_rows_append {name : String} {k : Int} :
    k ∈ Mention.rows (mentions (lines ++ more)) name ↔
      k ∈ Mention.rows (mentions lines) name ∨
        ∃ (n : Nat) (line : Line), k = ((Line.interactions lines).length + n : Nat) ∧
          (Line.interactions more)[n]? = some line ∧
          (line.sender = some name ∨ line.receiver = some name) := by
  simp only [Mention.rows, Set.mem_ofPred_eq, mem_mentions, Line.interactions_append]
  constructor
  -- a row below the number of earlier lines is one of theirs
  · rintro ⟨row, rfl, line, hline, hname⟩
    rcases Nat.lt_or_ge row (Line.interactions lines).length with hrow | hrow
    · rw [List.getElem?_append_left hrow] at hline
      exact .inl ⟨row, rfl, line, hline, hname⟩
    · rw [List.getElem?_append_right hrow] at hline
      exact .inr ⟨_, line, by rw [Nat.add_sub_cancel' hrow], hline, hname⟩
  · rintro (⟨row, rfl, line, hline, hname⟩ | ⟨n, line, rfl, hline, hname⟩)
    · have hrow := (List.getElem?_eq_some_iff.mp hline).1
      exact ⟨row, rfl, line, by rw [List.getElem?_append_left hrow, hline], hname⟩
    · refine ⟨_, rfl, line, ?_, hname⟩
      rw [List.getElem?_append_right (Nat.le_add_right _ n), Nat.add_sub_cancel_left, hline]

/-- Only rows of the earlier lines mention a name there. -/
theorem lt_length_of_mem_rows {name : String} {k : Int}
    (h : k ∈ Mention.rows (mentions lines) name) : k < (Line.interactions lines).length := by
  obtain ⟨row, rfl, hm⟩ := h
  obtain ⟨line, hline, -⟩ := mem_mentions.mp hm
  exact Int.ofNat_lt.mpr (List.getElem?_eq_some_iff.mp hline).1

/-- A span ends where it did unless a new line names the participant. -/
theorem lastRow_append {p q : Participant} (hname : q.name = p.name)
    (hp : IsGreatest (Mention.rows (mentions lines) p.name) p.lastRow)
    (hq : IsGreatest (Mention.rows (mentions (lines ++ more)) q.name) q.lastRow) :
    p.lastRow ≤ q.lastRow ∧
      (q.lastRow = p.lastRow ↔ ∀ line ∈ Line.interactions more,
        line.sender ≠ some p.name ∧ line.receiver ≠ some p.name) := by
  rw [hname] at hq
  have hle : p.lastRow ≤ q.lastRow := hq.2 (mem_rows_append.mpr (.inl hp.1))
  refine ⟨hle, ?_, ?_⟩
  · intro heq line hline
    by_contra hnamed
    rw [not_and_or, not_not, not_not] at hnamed
    obtain ⟨n, hn⟩ := List.mem_iff_getElem?.mp hline
    -- the new row lies behind all earlier ones
    have hnew := hq.2 (mem_rows_append.mpr (.inr ⟨n, line, rfl, hn, hnamed⟩))
    have hold := lt_length_of_mem_rows hp.1
    omega
  · intro hnone
    rcases mem_rows_append.mp hq.1 with hold | ⟨n, line, -, hn, hnamed⟩
    · exact Int.le_antisymm (hp.2 hold) hle
    · obtain ⟨hs, hr⟩ := hnone line (List.mem_of_getElem? hn)
      exact absurd hnamed (not_or.mpr ⟨hs, hr⟩)

/-! ### Names -/

variable (hps : Records ps (mentions lines)) (hqs : Records qs (mentions (lines ++ more)))
  (hkeeps : Keeps ps qs)

include hqs hkeeps in
/-- Two participants of one name stand in the same place. -/
theorem getElem?_of_name_eq {p q : Participant} (hq : q ∈ qs) (hname : q.name = p.name) {i : Nat}
    (hp : ps[i]? = some p) : qs[i]? = some q := by
  obtain ⟨row, height, hq'⟩ := hkeeps i p hp
  rw [hq', ← eq_of_name_eq hqs.names_nodup hq (List.mem_of_getElem? hq') hname]

include hps hqs hkeeps in
/-- Who has the same name has the same index, before and after. -/
theorem index_eq_of_name_eq {p q : Participant} (hp : p ∈ ps) (hq : q ∈ qs)
    (hname : q.name = p.name) : q.index = p.index := by
  obtain ⟨i, hi⟩ := List.mem_iff_getElem?.mp hp
  rw [hqs.index i q (getElem?_of_name_eq hqs hkeeps hq hname hi), hps.index i p hi]

include hps hqs hkeeps in
/-- Who is new is first mentioned behind the earlier rows. -/
theorem length_le_firstRow {i : Nat} {q : Participant} (hq : qs[i]? = some q)
    (hi : ps.length ≤ i) : (Line.interactions lines).length ≤ q.firstRow := by
  have hqm := List.mem_of_getElem? hq
  rcases mem_rows_append.mp (hqs.firstRow q hqm).1 with ⟨row, -, hm⟩ | ⟨n, line, hn, -, -⟩
  · -- a name of an earlier row is that of an earlier participant
    have hknown : q.name ∈ ps.map Participant.name := by
      rw [hps.names, List.mem_eraseDups]
      exact Mention.mem_names.mpr ⟨row, hm⟩
    obtain ⟨p, hp, hname⟩ := List.mem_map.mp hknown
    obtain ⟨j, hj⟩ := List.mem_iff_getElem?.mp hp
    have hj' := hqs.index j q (getElem?_of_name_eq hqs hkeeps hqm hname.symm hj)
    have hlt : j < ps.length := (List.getElem?_eq_some_iff.mp hj).1
    have := hqs.index i q hq
    omega
  · rw [hn]
    exact Int.ofNat_le.mpr (Nat.le_add_right _ n)

/-! ### Interactions -/

include hps hqs hkeeps in
/-- The row of a line shows the same arrow, whoever comes later. -/
theorem bindLine_append {line : Line} {row : Nat} {i j : Interaction}
    (hi : bindLine ps line row = .ok i) (hj : bindLine qs line row = .ok j) :
    j.row = i.row ∧ j.direction = i.direction ∧ j.message = i.message ∧
      j.lineNumber = i.lineNumber ∧ j.sender.name = i.sender.name ∧
      j.receiver.name = i.receiver.name := by
  obtain ⟨⟨hsm, hs⟩, ⟨hrm, hr⟩, hrow, hdir⟩ := endpoints_of_bindLine hi
  obtain ⟨⟨hsm', hs'⟩, ⟨hrm', hr'⟩, hrow', hdir'⟩ := endpoints_of_bindLine hj
  -- the names are those of the line in both charts, and they determine the indices
  have hsender : j.sender.name = i.sender.name := Option.some.inj (hs'.symm.trans hs)
  have hreceiver : j.receiver.name = i.receiver.name := Option.some.inj (hr'.symm.trans hr)
  have hindex := index_eq_of_name_eq hps hqs hkeeps hsm hsm' hsender
  have hindex' := index_eq_of_name_eq hps hqs hkeeps hrm hrm' hreceiver
  refine ⟨hrow'.trans hrow.symm, ?_, ?_, ?_, hsender, hreceiver⟩
  · rw [hdir, hdir', Direction.between, Direction.between, hindex, hindex']
  · obtain ⟨_, _, -, -, rfl⟩ := bindLine_eq_ok.mp hi
    obtain ⟨_, _, -, -, rfl⟩ := bindLine_eq_ok.mp hj
    rfl
  · obtain ⟨_, _, -, -, rfl⟩ := bindLine_eq_ok.mp hi
    obtain ⟨_, _, -, -, rfl⟩ := bindLine_eq_ok.mp hj
    rfl

end

/-! ### Built diagrams -/

namespace Diagram

/-- The diagram `e` continues `d`, after the lines `more` were added. -/
structure Continues (d e : Diagram) (more : List Line) : Prop where
  length_le : d.participants.length ≤ e.participants.length
  kept : ∀ (i : Nat) (p : Participant), d.participants[i]? = some p →
    ∃ q, e.participants[i]? = some q ∧ q.name = p.name ∧ q.index = p.index ∧
      q.firstRow = p.firstRow ∧ q.x = p.x ∧ q.labelWidth = p.labelWidth ∧
      p.lastRow ≤ q.lastRow ∧
      (q.lastRow = p.lastRow ↔ ∀ line ∈ Line.interactions more,
        line.sender ≠ some p.name ∧ line.receiver ≠ some p.name)
  new : ∀ (i : Nat) (q : Participant), e.participants[i]? = some q → d.participants.length ≤ i →
    d.interactions.length ≤ q.firstRow
  row : ∀ (k : Nat) (i : Interaction), d.interactions[k]? = some i →
    ∃ j, e.interactions[k]? = some j ∧ j.row = i.row ∧ j.direction = i.direction ∧
      j.message = i.message ∧ j.lineNumber = i.lineNumber ∧ j.sender.name = i.sender.name ∧
      j.receiver.name = i.receiver.name
  issues : d.issues <+: e.issues

variable {lines more : List Line}

/-- **What is drawn stays where it is**: the diagram of more lines continues
that of fewer. -/
theorem continues_of_build (hpure : measurer.Pure) {s s' : σ} {d e : Diagram}
    (hd : (build measurer layout lines s).result = .ok d)
    (he : (build measurer layout (lines ++ more) s').result = .ok e) : d.Continues e more := by
  obtain ⟨_, hresolved, hbound, -, -, -, hissues, -⟩ := build_result_ok hd
  obtain ⟨_, hresolved', hbound', -, -, -, hissues', -⟩ := build_result_ok he
  have hps := records_of_resolveParticipants hresolved
  have hqs := records_of_resolveParticipants hresolved'
  have hkeeps := keeps_resolveParticipants hpure hresolved hresolved'
  refine
    { length_le := hkeeps.length_le
      kept := ?_
      new := ?_
      row := ?_
      issues := ?_ }
  · intro i p hp
    obtain ⟨row, height, hq⟩ := hkeeps i p hp
    -- the span can only grow at its end
    have hspan := lastRow_append (p := p)
      (q := { p with lastRow := row, labelHeight := height }) rfl
      (hps.lastRow p (List.mem_of_getElem? hp)) (hqs.lastRow _ (List.mem_of_getElem? hq))
    exact ⟨_, hq, rfl, rfl, rfl, rfl, rfl, hspan⟩
  · intro i q hq hi
    rw [length_bindLines hbound]
    exact length_le_firstRow hps hqs hkeeps hq hi
  · intro k i hi
    obtain ⟨line, hline, hi⟩ := (getElem?_bindLines hbound).mp hi
    have hk : k < (Line.interactions lines).length := (List.getElem?_eq_some_iff.mp hline).1
    -- the row has the same line in both charts
    have hline' : (Line.interactions (lines ++ more))[k]? = some line := by
      rw [Line.interactions_append, List.getElem?_append_left hk, hline]
    have hk' : k < e.interactions.length := by
      rw [length_bindLines hbound']
      exact (List.getElem?_eq_some_iff.mp hline').1
    have hj := List.getElem?_eq_getElem hk'
    obtain ⟨line', hsame, hj'⟩ := (getElem?_bindLines hbound').mp hj
    obtain rfl : line = line' := Option.some.inj (hline'.symm.trans hsame)
    exact ⟨_, hj, bindLine_append hps hqs hkeeps hi hj'⟩
  · rw [hissues, hissues', Line.issues, Line.issues, List.filter_append]
    exact List.prefix_append _ _

/-- A late line names `A` again and brings in `C`; the span of `B` is done. -/
theorem continues_of_build_late : ∃ d e : Diagram,
    (build (.fixedWidth 10 20) {} (Line.classifyAll ["A -> B: x", "B -> B"]) ()).result = .ok d ∧
    (build (.fixedWidth 10 20) {} (Line.classifyAll ["A -> B: x", "B -> B"] ++
      Line.classifyAll ["none", "C -> A"]) ()).result = .ok e ∧
    d.participants.map Participant.lastRow = [0, 1] ∧
    e.participants.map Participant.lastRow = [2, 1, 2] ∧
    d.Continues e (Line.classifyAll ["none", "C -> A"]) := by
  have hrows : (build (.fixedWidth 10 20) {} (Line.classifyAll ["A -> B: x", "B -> B"]) ()).result.map
      (fun d => d.participants.map Participant.lastRow) = .ok [0, 1] := by
    decide +kernel
  have hrows' : (build (.fixedWidth 10 20) {} (Line.classifyAll ["A -> B: x", "B -> B"] ++
      Line.classifyAll ["none", "C -> A"]) ()).result.map
      (fun e => e.participants.map Participant.lastRow) = .ok [2, 1, 2] := by
    decide +kernel
  obtain ⟨d, hd, hrows⟩ := map_eq_ok.mp hrows
  obtain ⟨e, he, hrows'⟩ := map_eq_ok.mp hrows'
  exact ⟨d, e, hd, he, hrows, hrows',
    continues_of_build (Measurer.pure_ofFunction _) hd he⟩

end Diagram

end SequenceChart
