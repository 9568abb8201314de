/-
SequenceChart/Proofs/Pairing.lean

The interactions of any lines between any participants, described without the
pass that binds them.

Lines and participants need not come from one source here: an endpoint may
lack its name, a name may belong to nobody or to several participants, and the
indices may be any numbers.  `Pairing` says what becomes of such lines.  The
first line with an endpoint that is nobody's name is reported, for its sender
if both endpoints are; where there is no such line, each line has its
interaction in its own row, between the last participants of its two names.
Main result: `pairing_resolveInteractions`, without any assumption.

The pass is taken apart into its single look-ups, and each of them is shown to
succeed or to fail for the reason that the description gives.
-/
import SequenceChart.Proofs.Build
import SequenceChart.Proofs.Coherence

namespace SequenceChart

variable {participants : List Participant} {line : Line} {row : Nat}

/-! ### What is expected -/

/-- Whether an endpoint lacks its name, or has one that is nobody's. -/
def Unresolved (participants : List Participant) : Option String → Prop
  | none => True
  | some name => ∀ p ∈ participants, p.name ≠ name

instance (participants : List Participant) (name : Option String) :
    Decidable (Unresolved participants name) := by
  unfold Unresolved
  split <;> infer_instance

/-- Whether the participant is the last one that has the name. -/
def IsLastNamed (participants : List Participant) (name : String) (p : Participant) : Prop :=
  ∃ before after, participants = before ++ p :: after ∧ p.name = name ∧
    ∀ q ∈ after, q.name ≠ name

namespace Line

/-- Whether an endpoint of the line cannot be resolved. -/
def Dangles (participants : List Participant) (line : Line) : Prop :=
  Unresolved participants line.sender ∨ Unresolved participants line.receiver

/-- The name that a dangling line is reported with: that of its sender, unless
only the receiver cannot be resolved. -/
def missingName (participants : List Participant) (line : Line) : String :=
  (if Unresolved participants line.sender then line.sender else line.receiver).getD ""

end Line

/-- The interaction is that of the line, in its row. -/
structure Interaction.Binds (i : Interaction) (participants : List Participant) (line : Line)
    (row : Nat) : Prop where
  row : i.row = row
  lineNumber : i.lineNumber = line.number
  sender : ∃ name, line.sender = some name ∧ IsLastNamed participants name i.sender
  receiver : ∃ name, line.receiver = some name ∧ IsLastNamed participants name i.receiver
  rightward : i.direction = .rightward ↔ i.sender.index < i.receiver.index
  leftward : i.direction = .leftward ↔ i.receiver.index < i.sender.index
  loop : i.direction = .loop ↔ i.sender.index = i.receiver.index
  /-- A line of the other kind may hold a message too, which is not read. -/
  message : i.message = if line.kind = .interactionWithMessage then line.message else none

/-- What becomes of the interaction lines among any participants. -/
structure Pairing (participants : List Participant) (lines : List Line)
    (result : Except Fault (List Interaction)) : Prop where
  fails_iff :
    (∃ number name text,
      result = .error (.diagram (.missingParticipant number name text))) ↔
    ∃ line ∈ Line.interactions lines, line.Dangles participants
  /-- The first line that dangles is the one that is reported. -/
  first : ∀ before line after, Line.interactions lines = before ++ line :: after →
    (∀ earlier ∈ before, ¬ earlier.Dangles participants) → line.Dangles participants →
    result = .error (.diagram
      (.missingParticipant line.number (line.missingName participants) line.text))
  /-- Without such a line, each line has its interaction. -/
  binds : (∀ line ∈ Line.interactions lines, ¬ line.Dangles participants) →
    ∃ is, result = .ok is ∧ is.length = (Line.interactions lines).length ∧
      ∀ (k : Nat) (line : Line), (Line.interactions lines)[k]? = some line →
        ∃ i, is[k]? = some i ∧ i.Binds participants line k

/-! ### Looking up a name -/

/-- The participant that is found by a name is the last one who has it. -/
theorem lastNamed?_eq_some {name : String} {p : Participant} :
    lastNamed? participants name = some p ↔ IsLastNamed participants name p := by
  rw [lastNamed?, List.findRev?_eq_find?_reverse, List.find?_eq_some_iff_append]
  constructor
  -- the first one from the end is the last one from the front
  · rintro ⟨hname, after, before, hreverse, hafter⟩
    refine ⟨before.reverse, after.reverse, ?_, by simpa using hname, ?_⟩
    · rw [← List.reverse_reverse participants, hreverse]
      simp
    · intro q hq
      simpa using hafter q (List.mem_reverse.mp hq)
  · rintro ⟨before, after, rfl, hname, hafter⟩
    refine ⟨by simpa using hname, after.reverse, before.reverse, by simp, ?_⟩
    intro q hq
    simpa using hafter q (List.mem_reverse.mp hq)

/-- Nobody is found by a name that nobody has. -/
theorem lastNamed?_eq_none {name : String} :
    lastNamed? participants name = none ↔ ∀ p ∈ participants, p.name ≠ name := by
  rw [lastNamed?, List.findRev?_eq_find?_reverse, List.find?_eq_none]
  simp

theorem bind_lastNamed?_eq_none {name : Option String} :
    name.bind (lastNamed? participants) = none ↔ Unresolved participants name := by
  rcases name with - | name
  · simp [Unresolved]
  · exact lastNamed?_eq_none

/-! ### Binding a line -/

/-- An endpoint that names nobody is reported with its line. -/
theorem bindEndpoint_eq_error {name : Option String} {e : DiagramError} :
    bindEndpoint participants line name = .error e ↔
      Unresolved participants name ∧
        e = .missingParticipant line.number (name.getD "") line.text := by
  unfold bindEndpoint
  rw [← bind_lastNamed?_eq_none]
  rcases name.bind (lastNamed? participants) with - | p
  · simp [eq_comm]
  · simp

/-- An endpoint that is resolved is bound. -/
theorem exists_bindEndpoint (line : Line) {name : Option String}
    (h : ¬ Unresolved participants name) :
    ∃ p, bindEndpoint participants line name = .ok p := by
  rcases hbind : bindEndpoint participants line name with e | p
  · exact absurd (bindEndpoint_eq_error.mp hbind).1 h
  · exact ⟨p, rfl⟩

/-- The endpoints are looked up one after the other, so that a sender that
cannot be resolved is reported before the receiver is looked at. -/
theorem bindLine_eq_error {e : DiagramError} :
    bindLine participants line row = .error e ↔
      line.Dangles participants ∧
        e = .missingParticipant line.number (line.missingName participants) line.text := by
  have hpure : ∀ i : Interaction, (pure i : Except DiagramError Interaction) ≠ .error e :=
    fun i h => by cases h
  simp only [bindLine, bind_eq_error, hpure, and_false, exists_false, or_false,
    bindEndpoint_eq_error]
  unfold Line.Dangles Line.missingName
  -- without a sender the receiver is not looked at
  by_cases hs : Unresolved participants line.sender
  · have hnone : ∀ p, bindEndpoint participants line line.sender ≠ .ok p := by
      intro p hp
      rw [bindEndpoint_eq_error.mpr ⟨hs, rfl⟩] at hp
      cases hp
    simp [hs, hnone]
  · obtain ⟨p, hp⟩ := exists_bindEndpoint line hs
    simp [hs, hp]

/-- A line that can be bound is bound to who its names belong to. -/
theorem binds_of_bindLine {i : Interaction} (h : bindLine participants line row = .ok i) :
    i.Binds participants line row := by
  obtain ⟨sender, receiver, hs, hr, rfl⟩ := bindLine_eq_ok.mp h
  obtain ⟨n, hn, hs⟩ := bindEndpoint_eq_ok.mp hs
  obtain ⟨m, hm, hr⟩ := bindEndpoint_eq_ok.mp hr
  exact
    { row := rfl
      lineNumber := rfl
      sender := ⟨n, hn, lastNamed?_eq_some.mp hs⟩
      receiver := ⟨m, hm, lastNamed?_eq_some.mp hr⟩
      rightward := Direction.between_eq_rightward
      leftward := Direction.between_eq_leftward
      loop := Direction.between_eq_loop
      message := rfl }

/-- A line can be bound exactly if it does not dangle. -/
theorem exists_bindLine_iff :
    (∃ i, bindLine participants line row = .ok i) ↔ ¬ line.Dangles participants := by
  rcases h : bindLine participants line row with e | i
  · simp [(bindLine_eq_error.mp h).1]
  · have hok : ¬ line.Dangles participants := by
      intro hdangles
      rw [bindLine_eq_error.mpr ⟨hdangles, rfl⟩] at h
      cases h
    simp [hok]

/-! ### Binding all lines -/

section

variable {lines : List Line}

/-- The pass stops at the first line that dangles. -/
theorem bindLines_eq_error {e : DiagramError} :
    bindLines participants lines = .error e ↔
      ∃ before line after, Line.interactions lines = before ++ line :: after ∧
        (∀ earlier ∈ before, ¬ earlier.Dangles participants) ∧ line.Dangles participants ∧
        e = .missingParticipant line.number (line.missingName participants) line.text := by
  rw [bindLines, mapM_eq_error]
  simp only [bindLine_eq_error]
  constructor
  -- the lines are bound with their rows, which do not count for the error
  · rintro ⟨before, ⟨line, k⟩, after, hsplit, hbefore, hdangles, he⟩
    refine ⟨before.map Prod.fst, line, after.map Prod.fst, ?_, ?_, hdangles, he⟩
    · have hlines := congrArg (List.map Prod.fst) hsplit
      rwa [List.zipIdx_map_fst, List.map_append, List.map_cons] at hlines
    · intro earlier hearlier
      obtain ⟨⟨earlier, j⟩, hmem, rfl⟩ := List.mem_map.mp hearlier
      exact exists_bindLine_iff.mp (hbefore _ hmem)
  · rintro ⟨before, line, after, hsplit, hbefore, hdangles, he⟩
    refine ⟨before.zipIdx, (line, before.length), after.zipIdx (before.length + 1), ?_, ?_,
      hdangles, he⟩
    · rw [hsplit, List.zipIdx_append, List.zipIdx_cons, Nat.zero_add]
    · rintro ⟨earlier, j⟩ hmem
      have hearlier : earlier ∈ before := List.mem_of_getElem? (List.mk_mem_zipIdx_iff_getElem?.mp hmem)
      exact exists_bindLine_iff.mpr (hbefore earlier hearlier)

/-- If no line dangles, all are bound. -/
theorem exists_bindLines_of_forall
    (h : ∀ line ∈ Line.interactions lines, ¬ line.Dangles participants) :
    ∃ is, bindLines participants lines = .ok is := by
  rcases hbind : bindLines participants lines with e | is
  · obtain ⟨before, line, after, hsplit, -, hdangles, -⟩ := bindLines_eq_error.mp hbind
    exact absurd hdangles (h line (by rw [hsplit]; simp))
  · exact ⟨is, rfl⟩

/-- **The first line that names nobody is reported, and without one every line is
paired up**, for any lines and any participants. -/
theorem pairing_resolveInteractions {σ : Type} (participants : List Participant)
    (lines : List Line) (s : σ) :
    Pairing participants lines (resolveInteractions participants lines s).result := by
  rw [resolveInteractions_result]
  refine { fails_iff := ⟨?_, ?_⟩, first := ?_, binds := ?_ }
  · rintro ⟨number, name, text, h⟩
    rcases hbind : bindLines participants lines with e | is
    · obtain ⟨before, line, after, hsplit, -, hdangles, -⟩ := bindLines_eq_error.mp hbind
      exact ⟨line, by rw [hsplit]; simp, hdangles⟩
    · rw [hbind] at h
      cases h
  · rintro ⟨line, hline, hdangles⟩
    -- had all lines been bound, then this one too
    rcases hbind : bindLines participants lines with e | is
    · obtain ⟨_, _, _, -, -, -, rfl⟩ := bindLines_eq_error.mp hbind
      exact ⟨_, _, _, rfl⟩
    · obtain ⟨k, hk⟩ := List.mem_iff_getElem?.mp hline
      obtain ⟨i, -, hbound⟩ := exists_getElem?_bindLines hbind hk
      exact absurd hdangles (exists_bindLine_iff.mp ⟨i, hbound⟩)
  · intro before line after hsplit hbefore hdangles
    rw [bindLines_eq_error.mpr ⟨before, line, after, hsplit, hbefore, hdangles, rfl⟩]
    rfl
  · intro hnone
    obtain ⟨is, his⟩ := exists_bindLines_of_forall hnone
    refine ⟨is, by rw [his]; rfl, length_bindLines his, fun k line hline => ?_⟩
    obtain ⟨i, hi, hbound⟩ := exists_getElem?_bindLines his hline
    exact ⟨i, hi, binds_of_bindLine hbound⟩

end

end SequenceChart
