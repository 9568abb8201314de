/-
SequenceChart/Proofs/Coherence.lean

The two passes over a chart agree with each other.

The participants are numbered, placed and given their spans in one pass; the
interactions are numbered and bound by name in another.  A diagram in which
the two fit together is called coherent: positions are indices, endpoints are
the participants themselves and not copies, the spans are those of the bound
interactions, and the participants stand in the order in which the
interactions mention them.  Main result: every built diagram is coherent,
whatever measures its labels (`Diagram.coherent_of_build`).
-/
import SequenceChart.Proofs.Build

namespace SequenceChart

open FirstOccurrence

/-- The participants at both ends of an interaction, the sender first. -/
def Interaction.endpoints (i : Interaction) : List Participant :=
  [i.sender, i.receiver]

namespace Diagram

/-- The rows in which a participant is an endpoint. -/
def rowsOf (d : Diagram) (p : Participant) : Set Int :=
  {k | ∃ (n : Nat) (i : Interaction), k = n ∧ d.interactions[n]? = some i ∧ p ∈ i.endpoints}

/-- Participants and interactions fit together. -/
structure Coherent (d : Diagram) : Prop where
  names_nodup : (d.participants.map Participant.name).Nodup
  index : ∀ (n : Nat) (p : Participant), d.participants[n]? = some p → p.index = n
  row : ∀ (n : Nat) (i : Interaction), d.interactions[n]? = some i → i.row = n
  /-- An endpoint is, in every field, the participant at its own index. -/
  endpoint : ∀ i ∈ d.interactions, ∀ p ∈ i.endpoints,
    ∃ n : Nat, p.index = n ∧ d.participants[n]? = some p
  firstRow : ∀ p ∈ d.participants, IsLeast (d.rowsOf p) p.firstRow
  lastRow : ∀ p ∈ d.participants, IsGreatest (d.rowsOf p) p.lastRow
  span : ∀ p ∈ d.participants,
    0 ≤ p.firstRow ∧ p.firstRow ≤ p.lastRow ∧ p.lastRow < d.interactions.length
  /-- The participants stand in the order of first mention. -/
  mentioned : (d.interactions.flatMap Interaction.endpoints).eraseDups = d.participants
  direction : ∀ i ∈ d.interactions,
    (i.direction = .rightward ↔ i.sender.index < i.receiver.index) ∧
    (i.direction = .leftward ↔ i.receiver.index < i.sender.index) ∧
    (i.direction = .loop ↔ i.sender.index = i.receiver.index)
  loop : ∀ i ∈ d.interactions, i.direction = .loop ↔ i.sender.name = i.receiver.name
  found : ∀ i ∈ d.interactions, ∀ p ∈ i.endpoints, d.participant? p.name = some p
  notFound : ∀ name, (∀ i ∈ d.interactions, ∀ p ∈ i.endpoints, p.name ≠ name) →
    d.participant? name = none

end Diagram

/-! ### Directions -/

namespace Direction

theorem between_eq_rightward {p q : Participant} :
    between p q = rightward ↔ p.index < q.index := by
  unfold between
  split_ifs with h h'
  · simpa using h
  · simpa using h
  · simpa using h

theorem between_eq_leftward {p q : Participant} :
    between p q = leftward ↔ q.index < p.index := by
  unfold between
  split_ifs with h h'
  · simp [Int.le_of_lt h]
  · simpa using h'
  · simpa using h'

theorem between_eq_loop {p q : Participant} : between p q = loop ↔ p.index = q.index := by
  unfold between
  split_ifs with h h'
  · simp [Int.ne_of_lt h]
  · simp [(Int.ne_of_lt h').symm]
  · simpa using Int.le_antisymm (Int.not_lt.mp h') (Int.not_lt.mp h)

end Direction

/-! ### Participants and their interactions -/

section

variable {ps : List Participant} {lines : List Line} {is : List Interaction}

/-- A bound interaction runs between two of the participants, which have the
names that its line gives. -/
theorem endpoints_of_bindLine {line : Line} {row : Nat} {i : Interaction}
    (h : bindLine ps line row = .ok i) :
    (i.sender ∈ ps ∧ line.sender = some i.sender.name) ∧
      (i.receiver ∈ ps ∧ line.receiver = some i.receiver.name) ∧
      i.row = row ∧ i.direction = .between i.sender i.receiver := by
  obtain ⟨sender, receiver, hs, hr, rfl⟩ := bindLine_eq_ok.mp h
  obtain ⟨n, hn, hs⟩ := bindEndpoint_eq_ok.mp hs
  obtain ⟨m, hm, hr⟩ := bindEndpoint_eq_ok.mp hr
  obtain ⟨hsender, rfl⟩ := mem_of_lastNamed? hs
  obtain ⟨hreceiver, rfl⟩ := mem_of_lastNamed? hr
  exact ⟨⟨hsender, hn⟩, ⟨hreceiver, hm⟩, rfl, rfl⟩

/-- Read in order, the endpoints of the interactions have the endpoint names
of the lines. -/
theorem map_name_endpoints (h : bindLines ps lines = .ok is) :
    (is.flatMap Interaction.endpoints).map Participant.name = Line.endpointNames lines := by
  suffices H : ∀ (ls : List Line) (k : Nat) (is : List Interaction),
      List.Forall₂ (fun x i => bindLine ps x.1 x.2 = .ok i) (ls.zipIdx k) is →
      (is.flatMap Interaction.endpoints).map Participant.name =
        ls.flatMap fun line => line.sender.toList ++ line.receiver.toList from
    H _ 0 is (forall₂_bindLines h)
  -- on the lines, for every number that their rows may start from
  intro ls
  induction ls with
  | nil =>
      rintro k is ⟨⟩
      rfl
  | cons line ls ih =>
      rintro k is (_ | @⟨_, i, _, _, hi, his⟩)
      have hbound : bindLine ps line k = .ok i := hi
      obtain ⟨⟨-, hs⟩, ⟨-, hr⟩, -, -⟩ := endpoints_of_bindLine hbound
      simp only [List.flatMap_cons, List.map_append, ih _ _ his, hs, hr]
      rfl

/-- A participant is an endpoint in exactly the rows that mention its name. -/
theorem mem_rows_iff (hnd : (ps.map Participant.name).Nodup) (h : bindLines ps lines = .ok is)
    {p : Participant} (hp : p ∈ ps) (k : Int) :
    k ∈ Mention.rows (mentions lines) p.name ↔
      ∃ (n : Nat) (i : Interaction), k = n ∧ is[n]? = some i ∧ p ∈ i.endpoints := by
  simp only [Mention.rows, Set.mem_ofPred_eq, mem_mentions]
  constructor
  · rintro ⟨n, rfl, line, hline, hname⟩
    -- the row of the mention is that of the interaction of the same line
    obtain ⟨i, hi, hbound⟩ := exists_getElem?_bindLines h hline
    obtain ⟨⟨hsm, hs⟩, ⟨hrm, hr⟩, -, -⟩ := endpoints_of_bindLine hbound
    refine ⟨n, i, rfl, hi, ?_⟩
    rcases hname with hname | hname
    · have hsame : p.name = i.sender.name := Option.some.inj (hname.symm.trans hs)
      rw [eq_of_name_eq hnd hp hsm hsame]
      exact List.mem_cons_self
    · have hsame : p.name = i.receiver.name := Option.some.inj (hname.symm.trans hr)
      rw [eq_of_name_eq hnd hp hrm hsame]
      exact List.mem_cons_of_mem _ List.mem_cons_self
  · rintro ⟨n, i, rfl, hi, hpi⟩
    obtain ⟨line, hline, hi⟩ := (getElem?_bindLines h).mp hi
    obtain ⟨⟨-, hs⟩, ⟨-, hr⟩, -, -⟩ := endpoints_of_bindLine hi
    refine ⟨n, rfl, line, hline, ?_⟩
    rcases List.mem_cons.mp hpi with rfl | hpi
    · exact .inl hs
    · obtain rfl := List.mem_singleton.mp hpi
      exact .inr hr

/-! ### Two passes over the same lines -/

theorem Records.names_nodup {ms : List Mention} (hps : Records ps ms) :
    (ps.map Participant.name).Nodup := by
  rw [hps.names]
  exact nodup_eraseDups _

/-- An index leads back to its participant. -/
theorem Records.exists_index {ms : List Mention} (hps : Records ps ms) {p : Participant}
    (hp : p ∈ ps) : ∃ n : Nat, p.index = n ∧ ps[n]? = some p := by
  obtain ⟨n, hn⟩ := List.mem_iff_getElem?.mp hp
  exact ⟨n, hps.index n p hn, hn⟩

theorem Records.eq_of_index_eq {ms : List Mention} (hps : Records ps ms) {p q : Participant}
    (hp : p ∈ ps) (hq : q ∈ ps) (h : p.index = q.index) : p = q := by
  obtain ⟨n, hn, hpn⟩ := hps.exists_index hp
  obtain ⟨m, hm, hqm⟩ := hps.exists_index hq
  obtain rfl : n = m := by omega
  exact Option.some.inj (hpn.symm.trans hqm)

theorem exists_bindLine_of_mem (h : bindLines ps lines = .ok is) {i : Interaction} (hi : i ∈ is) :
    ∃ line row, bindLine ps line row = .ok i := by
  obtain ⟨k, hk⟩ := List.mem_iff_getElem?.mp hi
  obtain ⟨line, -, hbound⟩ := (getElem?_bindLines h).mp hk
  exact ⟨line, k, hbound⟩

/-- Both ends of an interaction take part. -/
theorem mem_of_mem_endpoints (h : bindLines ps lines = .ok is) {i : Interaction} (hi : i ∈ is)
    {p : Participant} (hp : p ∈ i.endpoints) : p ∈ ps := by
  obtain ⟨line, row, hbound⟩ := exists_bindLine_of_mem h hi
  obtain ⟨⟨hs, -⟩, ⟨hr, -⟩, -, -⟩ := endpoints_of_bindLine hbound
  rcases List.mem_cons.mp hp with rfl | hp
  · exact hs
  · exact List.mem_singleton.mp hp ▸ hr

/-- An arrow points from the sender to the receiver. -/
theorem direction_of_bindLines (h : bindLines ps lines = .ok is) {i : Interaction} (hi : i ∈ is) :
    i.direction = .between i.sender i.receiver := by
  obtain ⟨line, row, hbound⟩ := exists_bindLine_of_mem h hi
  exact (endpoints_of_bindLine hbound).2.2.2

/-- The first occurrences among the endpoints are the participants in their
order.  Names are distinct, so they may be taken of the names instead. -/
theorem eraseDups_endpoints (hps : Records ps (mentions lines))
    (h : bindLines ps lines = .ok is) : (is.flatMap Interaction.endpoints).eraseDups = ps := by
  have hinj : Set.InjOn Participant.name {p | p ∈ ps} := fun p hp q hq =>
    eq_of_name_eq hps.names_nodup hp hq
  have hsub : ∀ p ∈ is.flatMap Interaction.endpoints, p ∈ ps := by
    intro p hp
    obtain ⟨i, hi, hp⟩ := List.mem_flatMap.mp hp
    exact mem_of_mem_endpoints h hi hp
  have hnames : (is.flatMap Interaction.endpoints).eraseDups.map Participant.name
      = ps.map Participant.name := by
    rw [← eraseDups_map (hinj.mono hsub), map_name_endpoints h, hps.names, names_mentions]
  exact eq_of_map_eq hinj (fun p hp => hsub p (List.mem_eraseDups.mp hp)) (fun p hp => hp) hnames

end

/-! ### Built diagrams -/

namespace Diagram

variable {σ : Type} {measurer : Measurer σ} {layout : Layout} {lines : List Line}

/-- Every diagram that is built from lines is coherent. -/
theorem coherent_of_build {s : σ} {d : Diagram}
    (h : (build measurer layout lines s).result = .ok d) : d.Coherent := by
  obtain ⟨s', hps, his, -, -, -, -, -⟩ := build_result_ok h
  have hrec := records_of_resolveParticipants hps
  have hnd := hrec.names_nodup
  -- the rows that mention a participant are those that it is an endpoint of
  have hrows : ∀ p ∈ d.participants, d.rowsOf p = Mention.rows (mentions lines) p.name :=
    fun p hp => Set.ext fun k => (mem_rows_iff hnd his hp k).symm
  have hfirst : ∀ p ∈ d.participants, IsLeast (d.rowsOf p) p.firstRow := fun p hp =>
    hrows p hp ▸ hrec.firstRow p hp
  have hlast : ∀ p ∈ d.participants, IsGreatest (d.rowsOf p) p.lastRow := fun p hp =>
    hrows p hp ▸ hrec.lastRow p hp
  refine
    { names_nodup := hnd
      index := hrec.index
      row := ?_
      endpoint := fun i hi p hp => hrec.exists_index (mem_of_mem_endpoints his hi hp)
      firstRow := hfirst
      lastRow := hlast
      span := ?_
      mentioned := eraseDups_endpoints hrec his
      direction := ?_
      loop := ?_
      found := fun i hi p hp => find?_name_eq_some hnd (mem_of_mem_endpoints his hi hp)
      notFound := ?_ }
  · intro n i hi
    obtain ⟨line, -, hbound⟩ := (getElem?_bindLines his).mp hi
    exact (endpoints_of_bindLine hbound).2.2.1
  · intro p hp
    obtain ⟨n, -, hn, -, -⟩ := (hfirst p hp).1
    obtain ⟨m, i, hm, hi, -⟩ := (hlast p hp).1
    have hle : p.firstRow ≤ p.lastRow := (hfirst p hp).2 (hlast p hp).1
    have hlt : m < d.interactions.length := (List.getElem?_eq_some_iff.mp hi).1
    omega
  · intro i hi
    rw [direction_of_bindLines his hi]
    exact ⟨Direction.between_eq_rightward, Direction.between_eq_leftward,
      Direction.between_eq_loop⟩
  · intro i hi
    have hs : i.sender ∈ d.participants := mem_of_mem_endpoints his hi List.mem_cons_self
    have hr : i.receiver ∈ d.participants :=
      mem_of_mem_endpoints his hi (List.mem_cons_of_mem _ List.mem_cons_self)
    rw [direction_of_bindLines his hi, Direction.between_eq_loop]
    constructor
    · intro heq
      rw [hrec.eq_of_index_eq hs hr heq]
    · intro heq
      rw [eq_of_name_eq hnd hs hr heq]
  · -- every participant is an endpoint somewhere
    intro name hname
    refine List.find?_eq_none.mpr fun p hp => ?_
    obtain ⟨n, i, -, hi, hpi⟩ := (hfirst p hp).1
    simpa using hname i (List.mem_of_getElem? hi) p hpi

/-- **The passes agree**: every diagram that is read from a source, be it a
text or lines, is coherent, for every measurer and every layout. -/
theorem coherent_of_source {s : σ} {d : Diagram}
    (h : (∃ source, (ofText measurer layout source s).result = .ok d) ∨
      ∃ texts, (ofLines measurer layout texts s).result = .ok d) : d.Coherent := by
  rcases h with ⟨source, h⟩ | ⟨texts, h⟩
  · exact coherent_of_build h
  · exact coherent_of_build h

/-- Names that come back, a loop, and lines that are no interactions. -/
theorem coherent_of_source_repeated : ∃ d : Diagram,
    (ofText (.fixedWidth 10 20) {} "B -> A: x\n# note\nA -> A\nnone\nB -> C" ()).result = .ok d ∧
      d.participants.map Participant.name = ["B", "A", "C"] ∧ d.Coherent := by
  have hnames : (ofText (.fixedWidth 10 20) {} "B -> A: x\n# note\nA -> A\nnone\nB -> C" ()).result.map
      (fun d => d.participants.map Participant.name) = .ok ["B", "A", "C"] := by
    decide +kernel
  obtain ⟨d, hd, hnames⟩ := map_eq_ok.mp hnames
  exact ⟨d, hd, hnames, coherent_of_source (.inl ⟨_, hd⟩)⟩

end Diagram

end SequenceChart
