/-
SequenceChart/Proofs/Binding.lean

The pass over the interactions: what it binds the endpoints of a line to.

The pass keeps no state but its row, so it is described row by row: the
interaction in row `k` is that of the `k`-th interaction line
(`getElem?_bindLines`), and it exists if both endpoint names of the line are
names of participants (`bindLines_total`).  Where the names of the
participants are distinct, the look-up from the end and the look-up from the
front find the same participant.
-/
import Mathlib.Data.List.Forall2
import Mathlib.Data.List.Nodup
import SequenceChart.Interaction
import SequenceChart.Proofs.Mention
import SequenceChart.Proofs.Run

namespace SequenceChart

variable {participants : List Participant}

/-! ### Looking up a name -/

/-- Two participants of one name are the same where names are distinct. -/
theorem eq_of_name_eq (hnd : (participants.map Participant.name).Nodup) {p q : Participant}
    (hp : p ∈ participants) (hq : q ∈ participants) (h : p.name = q.name) : p = q :=
  List.inj_on_of_nodup_map hnd hp hq h

/-- Who is found by a name takes part and has this name. -/
theorem mem_of_lastNamed? {name : String} {p : Participant}
    (h : lastNamed? participants name = some p) : p ∈ participants ∧ p.name = name := by
  rw [lastNamed?, List.findRev?_eq_find?_reverse] at h
  exact ⟨List.mem_reverse.mp (List.mem_of_find?_eq_some h), by simpa using List.find?_some h⟩

theorem lastNamed?_isSome_iff {name : String} :
    (lastNamed? participants name).isSome ↔ name ∈ participants.map Participant.name := by
  rw [lastNamed?, List.findRev?_eq_find?_reverse, List.find?_isSome]
  simp

theorem find?_name_eq_some (hnd : (participants.map Participant.name).Nodup) {p : Participant}
    (hp : p ∈ participants) : participants.find? (fun q => q.name = p.name) = some p := by
  rcases h : participants.find? (fun q => q.name = p.name) with - | q
  · have := List.find?_eq_none.mp h p hp
    simp at this
  · have hq : q ∈ participants := List.mem_of_find?_eq_some h
    have hname : q.name = p.name := by simpa using List.find?_some h
    rw [h, eq_of_name_eq hnd hq hp hname]

/-! ### Binding a line -/

/-- An endpoint is bound to the last participant of its name. -/
theorem bindEndpoint_eq_ok {line : Line} {name : Option String} {p : Participant} :
    bindEndpoint participants line name = .ok p ↔
      ∃ n, name = some n ∧ lastNamed? participants n = some p := by
  unfold bindEndpoint
  rcases name with - | n
  · simp
  · rcases h : lastNamed? participants n with - | q <;> simp [h]

/-- A line is bound by its two ends. -/
theorem bindLine_eq_ok {line : Line} {row : Nat} {i : Interaction} :
    bindLine participants line row = .ok i ↔
      ∃ sender receiver,
        bindEndpoint participants line line.sender = .ok sender ∧
        bindEndpoint participants line line.receiver = .ok receiver ∧
        i = { row := row, sender := sender, receiver := receiver
              direction := .between sender receiver
              message := if line.kind = .interactionWithMessage then line.message else none
              lineNumber := line.number } := by
  simp only [bindLine, bind_eq_ok]
  constructor
  · rintro ⟨sender, hs, receiver, hr, h⟩
    exact ⟨sender, receiver, hs, hr, (Except.ok.inj h).symm⟩
  · rintro ⟨sender, receiver, hs, hr, rfl⟩
    exact ⟨sender, hs, receiver, hr, rfl⟩

/-- Two lists have the same images if their elements have, one by one. -/
theorem map_eq_map_iff_forall₂ {α β γ : Type} {f : α → γ} {g : β → γ} {xs : List α}
    {ys : List β} : xs.map f = ys.map g ↔ List.Forall₂ (fun x y => f x = g y) xs ys := by
  rw [← List.forall₂_eq_eq_eq, List.forall₂_map_left_iff, List.forall₂_map_right_iff]

/-! ### Binding all lines -/

section

variable {lines : List Line} {interactions : List Interaction}

theorem forall₂_bindLines (h : bindLines participants lines = .ok interactions) :
    List.Forall₂ (fun x i => bindLine participants x.1 x.2 = .ok i)
      (Line.interactions lines).zipIdx interactions :=
  mapM_eq_ok.mp h

theorem length_bindLines (h : bindLines participants lines = .ok interactions) :
    interactions.length = (Line.interactions lines).length := by
  rw [← (forall₂_bindLines h).length_eq, List.length_zipIdx]

/-- The interaction in a row is that of the interaction line in that place. -/
theorem getElem?_bindLines (h : bindLines participants lines = .ok interactions) {k : Nat}
    {i : Interaction} :
    interactions[k]? = some i ↔
      ∃ line, (Line.interactions lines)[k]? = some line ∧ bindLine participants line k = .ok i := by
  -- both lists have the same length, so a place in one is a place in the other
  have hlen := length_bindLines h
  have hget := (List.forall₂_iff_get.mp (forall₂_bindLines h)).2
  constructor
  · intro hi
    obtain ⟨hk, rfl⟩ := List.getElem?_eq_some_iff.mp hi
    have hk' : k < (Line.interactions lines).length := hlen ▸ hk
    refine ⟨(Line.interactions lines)[k], List.getElem?_eq_getElem hk', ?_⟩
    simpa using hget k (by simpa using hk') hk
  · rintro ⟨line, hline, hi⟩
    obtain ⟨hk', rfl⟩ := List.getElem?_eq_some_iff.mp hline
    have hk : k < interactions.length := hlen.symm ▸ hk'
    have hbound := hget k (by simpa using hk') hk
    simp only [List.get_eq_getElem, List.getElem_zipIdx, Nat.zero_add, hi,
      Except.ok.injEq] at hbound
    rw [List.getElem?_eq_getElem hk, hbound]

/-- Each line has its interaction in its place. -/
theorem exists_getElem?_bindLines (h : bindLines participants lines = .ok interactions) {k : Nat}
    {line : Line} (hline : (Line.interactions lines)[k]? = some line) :
    ∃ i, interactions[k]? = some i ∧ bindLine participants line k = .ok i := by
  have hk : k < interactions.length := by
    rw [length_bindLines h]
    exact (List.getElem?_eq_some_iff.mp hline).1
  obtain ⟨line', hline', hi⟩ := (getElem?_bindLines h).mp (List.getElem?_eq_getElem hk)
  obtain rfl : line = line' := Option.some.inj (hline.symm.trans hline')
  exact ⟨interactions[k], List.getElem?_eq_getElem hk, hi⟩

/-- Two lists of lines that are related one by one are bound to interactions that
are related one by one, if what is bound in a row is. -/
theorem forall₂_of_bindLines {lines' : List Line} {interactions' : List Interaction}
    {T : Line → Line → Prop} {R : Interaction → Interaction → Prop}
    (hlines : List.Forall₂ T (Line.interactions lines) (Line.interactions lines'))
    (h : bindLines participants lines = .ok interactions)
    (h' : bindLines participants lines' = .ok interactions')
    (hrow : ∀ line ∈ Line.interactions lines, ∀ line' ∈ Line.interactions lines', T line line' →
      ∀ (row : Nat) i j, bindLine participants line row = .ok i →
        bindLine participants line' row = .ok j → R i j) :
    List.Forall₂ R interactions interactions' := by
  have hlength : interactions.length = interactions'.length := by
    rw [length_bindLines h, length_bindLines h', hlines.length_eq]
  refine List.forall₂_iff_get.mpr ⟨hlength, fun k hk hk' => ?_⟩
  -- the row comes from the line of the same place in either list
  obtain ⟨line, hline, hi⟩ := (getElem?_bindLines h).mp (List.getElem?_eq_getElem hk)
  obtain ⟨line', hline', hj⟩ := (getElem?_bindLines h').mp (List.getElem?_eq_getElem hk')
  obtain ⟨hlt, rfl⟩ := List.getElem?_eq_some_iff.mp hline
  obtain ⟨hlt', rfl⟩ := List.getElem?_eq_some_iff.mp hline'
  exact hrow _ (List.getElem_mem hlt) _ (List.getElem_mem hlt') (hlines.get hlt hlt') k _ _ hi hj

/-- Lines whose endpoint names are all names of participants can be bound. -/
theorem bindLines_total (hnamed : Line.Named lines)
    (hcover : ∀ name ∈ Line.firstMentions lines, name ∈ participants.map Participant.name) :
    ∃ interactions, bindLines participants lines = .ok interactions := by
  -- an endpoint that is named is mentioned, and who is mentioned takes part
  have endpoint : ∀ line ∈ Line.interactions lines, ∀ name : Option String, name.isSome →
      (line.sender = name ∨ line.receiver = name) →
      ∃ p, bindEndpoint participants line name = .ok p := by
    intro line hline name hsome hname
    obtain ⟨n, rfl⟩ := Option.isSome_iff_exists.mp hsome
    have hn := hcover n (Line.mem_firstMentions.mpr ⟨line, hline, hname⟩)
    obtain ⟨p, hp⟩ := Option.isSome_iff_exists.mp (lastNamed?_isSome_iff.mpr hn)
    exact ⟨p, bindEndpoint_eq_ok.mpr ⟨n, rfl, hp⟩⟩
  refine exists_mapM_eq_ok ?_
  rintro ⟨line, row⟩ hx
  have hline : line ∈ Line.interactions lines :=
    List.mem_of_getElem? (List.mk_mem_zipIdx_iff_getElem?.mp hx)
  obtain ⟨hs, hr⟩ := hnamed line hline
  obtain ⟨sender, hsender⟩ := endpoint line hline line.sender hs (.inl rfl)
  obtain ⟨receiver, hreceiver⟩ := endpoint line hline line.receiver hr (.inr rfl)
  exact ⟨_, bindLine_eq_ok.mpr ⟨sender, receiver, hsender, hreceiver, rfl⟩⟩

end

end SequenceChart
