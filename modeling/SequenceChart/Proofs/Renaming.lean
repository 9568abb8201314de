/-
SequenceChart/Proofs/Renaming.lean

Charts whose participants are given other names.

A chart looks at a name in two ways only: whether it is the same as another
one, and how much room it takes.  So if names that differ are given other names
that differ, each of them as large as before, the chart stays what it was but
for the names on it (`Diagram.build_rename`): no place, no span, no direction
and no order depends on how a name is spelled.

The two builds are run side by side.  `Run.Follows` says that one run does what
another one does and ends with its result carried over; it is closed under
sequencing, so it follows the passes of a build step by step.  Of the pass over
the participants one has to know that it never enters a name that is not
mentioned, since the new names need not differ elsewhere.
-/
import Mathlib.Data.List.Find
import SequenceChart.Proofs.Measuring

namespace SequenceChart

/-! ### Runs that follow another one -/

namespace Run

variable {σ α β γ δ : Type}

/-- From every state, `m'` gives the notices of `m`, ends in the state that `m`
ends in, and has the result of `m` carried over by `φ`. -/
structure Follows (φ : α → β) (m : Run σ α) (m' : Run σ β) : Prop where
  notices : ∀ s, (m' s).notices = (m s).notices
  state : ∀ s, (m' s).state = (m s).state
  result : ∀ s, (m' s).result = (m s).result.map φ

namespace Follows

theorem refl (m : Run σ α) : Follows id m m :=
  ⟨fun _ => rfl, fun _ => rfl, fun s => by rcases (m s).result with fault | a <;> rfl⟩

theorem pure (φ : α → β) (a : α) : Follows φ (pure a : Run σ α) (pure (φ a)) :=
  ⟨fun _ => rfl, fun _ => rfl, fun _ => rfl⟩

theorem fail (φ : α → β) (fault : Fault) : Follows φ (fail fault : Run σ α) (fail fault) :=
  ⟨fun _ => rfl, fun _ => rfl, fun _ => rfl⟩

/-- Steps that follow each other make up sequences that do.  The second step may
rely on what the first one results in. -/
theorem bind {φ : α → β} {ψ : γ → δ} {m : Run σ α} {m' : Run σ β} {f : α → Run σ γ}
    {f' : β → Run σ δ} (hm : Follows φ m m')
    (hf : ∀ a, (∃ s, (m s).result = .ok a) → Follows ψ (f a) (f' (φ a))) :
    Follows ψ (m >>= f) (m' >>= f') := by
  -- both sequences stop at the first step, or both go on from the same state
  have step : ∀ s, ((m' >>= f') s).notices = ((m >>= f) s).notices ∧
      ((m' >>= f') s).state = ((m >>= f) s).state ∧
      ((m' >>= f') s).result = ((m >>= f) s).result.map ψ := by
    intro s
    rcases h : m s with ⟨events, s₁, fault | a⟩
    · rcases h' : m' s with ⟨events', s₁', r'⟩
      have hnotices := hm.notices s
      have hstate := hm.state s
      have hresult := hm.result s
      rw [h, h'] at hnotices hstate hresult
      obtain rfl : r' = .error fault := hresult
      rw [bind_apply_error h, bind_apply_error h']
      exact ⟨hnotices, hstate, rfl⟩
    · rcases h' : m' s with ⟨events', s₁', r'⟩
      have hnotices := hm.notices s
      have hstate := hm.state s
      have hresult := hm.result s
      rw [h, h'] at hnotices hstate hresult
      obtain rfl : r' = .ok (φ a) := hresult
      obtain rfl : s₁' = s₁ := hstate
      have hnext := hf a ⟨s, by rw [h]⟩
      rw [bind_apply_ok h, bind_apply_ok h']
      refine ⟨?_, hnext.state _, hnext.result _⟩
      simp only [Trace.notices, List.filterMap_append] at hnotices ⊢
      rw [hnotices]
      exact congrArg _ (hnext.notices s₁')
  exact ⟨fun s => (step s).1, fun s => (step s).2.1, fun s => (step s).2.2⟩

/-- A first step that both runs have in common. -/
theorem bind_same {ψ : γ → δ} (m : Run σ α) {f : α → Run σ γ} {f' : α → Run σ δ}
    (hf : ∀ a, (∃ s, (m s).result = .ok a) → Follows ψ (f a) (f' a)) :
    Follows ψ (m >>= f) (m >>= f') :=
  (refl m).bind hf

end Follows

end Run

/-! ### Renamed data -/

section

variable (g : String → String)

/-- Rename the ends of an interaction line. -/
def Line.rename (line : Line) : Line :=
  { line with sender := line.sender.map g, receiver := line.receiver.map g }

/-- Rename who is mentioned. -/
def Mention.rename (m : Mention) : Mention :=
  { m with name := m.name.map g }

/-- Rename a participant, whose label keeps its size. -/
def Participant.rename (p : Participant) : Participant :=
  { p with name := g p.name }

/-- Rename all participants of a roster. -/
def Roster.rename (roster : Roster) : Roster :=
  { roster with entries := roster.entries.map (Participant.rename g) }

/-- Rename both ends of an interaction. -/
def Interaction.rename (i : Interaction) : Interaction :=
  { i with sender := i.sender.rename g, receiver := i.receiver.rename g }

/-- The diagram with other names on its participants, inside its interactions
too, and on its lines; everything else stays. -/
def Diagram.rename (d : Diagram) : Diagram :=
  { d with
    participants := d.participants.map (Participant.rename g)
    interactions := d.interactions.map (Interaction.rename g)
    issues := d.issues.map (Line.rename g) }

end

variable {σ : Type} {measurer : Measurer σ} {layout : Layout} {g : String → String}
  {names : Set String}

/-! ### What lines keep -/

section

variable (g) (lines : List Line)

theorem Line.interactions_rename :
    interactions (lines.map (rename g)) = (interactions lines).map (rename g) :=
  List.filter_map

theorem Line.issues_rename : issues (lines.map (rename g)) = (issues lines).map (rename g) :=
  List.filter_map

/-- Who is renamed is mentioned in the same rows. -/
theorem mentions_rename :
    mentions (lines.map (Line.rename g)) = (mentions lines).map (Mention.rename g) := by
  rw [mentions, mentions, Line.interactions_rename, List.zipIdx_map, List.flatMap_map,
    List.map_flatMap]
  rfl

theorem Header.collect_rename : collect (lines.map (Line.rename g)) = collect lines := by
  rw [collect, collect, List.filterMap_map]
  rfl

/-- What is reported about a line says nothing of its endpoints. -/
theorem Diagram.forM_reportIssue_rename :
    ((lines.map (Line.rename g)).forM reportIssue : Run σ Unit) = lines.forM reportIssue := by
  funext s
  rw [forM_reportIssue, forM_reportIssue, List.map_map]
  rfl

end

/-! ### The pass over the participants -/

namespace Roster

variable {roster roster' : Roster}

/-- No pass enters a name that is not mentioned. -/
theorem names_mention {m : Mention} {s : σ} (hroster : ∀ p ∈ roster.entries, p.name ∈ names)
    (hm : ∀ name ∈ m.name, name ∈ names)
    (h : (mention measurer layout roster m s).result = .ok roster') :
    ∀ p ∈ roster'.entries, p.name ∈ names := by
  obtain ⟨name, hname, ⟨-, rfl⟩ | ⟨-, h⟩⟩ := mention_result_ok h
  · intro p hp
    obtain ⟨q, hq, rfl⟩ := List.mem_map.mp hp
    split <;> exact hroster q hq
  · obtain ⟨size, gap, advance, cursor, -, -, -, -, rfl⟩ := enter_result_ok h
    intro p hp
    rcases List.mem_append.mp hp with hp | hp
    · exact hroster p hp
    · obtain rfl := List.mem_singleton.mp hp
      exact hm name hname

section

variable (hinj : Set.InjOn g names) (hroster : ∀ p ∈ roster.entries, p.name ∈ names)
include hinj hroster

/-- A renamed name is known exactly if the name was. -/
theorem knows_rename {name : String} (hname : name ∈ names) :
    (roster.rename g).knows (g name) = roster.knows name := by
  rw [Bool.eq_iff_iff, knows, knows, rename, List.any_map, List.any_eq_true, List.any_eq_true]
  refine exists_congr fun p => and_congr_right fun hp => ?_
  rw [Function.comp_apply, decide_eq_true_iff, decide_eq_true_iff]
  exact hinj.eq_iff (hroster p hp) hname

theorem extend_rename {name : String} (hname : name ∈ names) (row : Nat) :
    (roster.rename g).extend (g name) row = (roster.extend name row).rename g := by
  simp only [extend, rename, List.map_map]
  congr 1
  refine List.map_congr_left fun p hp => ?_
  have hsame : (g p.name = g name) = (p.name = name) := by
    rw [hinj.eq_iff (hroster p hp) hname]
  simp only [Function.comp_apply, Participant.rename, hsame]
  split <;> rfl

/-- A mention of a new name does to a renamed roster what one of the old name
does. -/
theorem follows_mention
    (hmeasure : ∀ name ∈ names, measurer (g name) layout.participantFontSize =
      measurer name layout.participantFontSize)
    {m : Mention} (hm : ∀ name ∈ m.name, name ∈ names) :
    Run.Follows (rename g) (mention measurer layout roster m)
      (mention measurer layout (roster.rename g) (m.rename g)) := by
  obtain ⟨row, - | name⟩ := m
  · exact Run.Follows.fail _ _
  have hname : name ∈ names := hm name rfl
  show Run.Follows (rename g)
    (if roster.knows name then pure (roster.extend name row)
      else enter measurer layout roster name row)
    (if (roster.rename g).knows (g name) then pure ((roster.rename g).extend (g name) row)
      else enter measurer layout (roster.rename g) (g name) row)
  rw [knows_rename hinj hroster hname, extend_rename hinj hroster hname]
  split
  · exact Run.Follows.pure _ _
  · -- the request differs by its text, the answer does not
    have hask : Run.Follows id (measurer.ask name layout.participantFontSize)
        (measurer.ask (g name) layout.participantFontSize) := by
      refine (Run.Follows.mk (fun _ => rfl) (fun _ => rfl) fun _ => rfl :
        Run.Follows id (Run.record (.measured name layout.participantFontSize) : Run σ Unit)
          (Run.record (.measured (g name) layout.participantFontSize))).bind fun _ _ => ?_
      rw [hmeasure name hname]
      exact Run.Follows.refl _
    refine hask.bind fun size _ => ?_
    refine Run.Follows.bind_same _ fun gap _ => ?_
    refine Run.Follows.bind_same _ fun advance _ => ?_
    refine Run.Follows.bind_same _ fun cursor _ => ?_
    have hnext : (⟨(roster.rename g).entries ++
          [(roster.rename g).newcomer (g name) row size], cursor⟩ : Roster) =
        rename g ⟨roster.entries ++ [roster.newcomer name row size], cursor⟩ := by
      simp [rename, newcomer, Participant.rename]
    show Run.Follows (rename g)
      (pure ⟨roster.entries ++ [roster.newcomer name row size], cursor⟩)
      (pure ⟨(roster.rename g).entries ++
        [(roster.rename g).newcomer (g name) row size], cursor⟩)
    rw [hnext]
    exact Run.Follows.pure _ _

/-- A pass over renamed mentions is the renamed pass. -/
theorem follows_foldlM
    (hmeasure : ∀ name ∈ names, measurer (g name) layout.participantFontSize =
      measurer name layout.participantFontSize)
    {ms : List Mention} (hms : ∀ m ∈ ms, ∀ name ∈ m.name, name ∈ names) :
    Run.Follows (rename g) (ms.foldlM (mention measurer layout) roster)
      ((ms.map (Mention.rename g)).foldlM (mention measurer layout) (roster.rename g)) := by
  induction ms generalizing roster with
  | nil => exact Run.Follows.pure _ _
  | cons m ms ih =>
      have hm : ∀ name ∈ m.name, name ∈ names := hms m (by simp)
      rw [List.map_cons, List.foldlM_cons, List.foldlM_cons]
      refine (follows_mention hinj hroster hmeasure hm).bind fun next hnext => ?_
      obtain ⟨s, hnext⟩ := hnext
      exact ih (names_mention hroster hm hnext) fun m' hm' => hms m' (by simp [hm'])

end

theorem participants_rename (roster : Roster) :
    (roster.rename g).participants = roster.participants.map (Participant.rename g) := by
  obtain ⟨entries, cursor⟩ := roster
  cases entries with
  | nil => rfl
  | cons first rest =>
      simp only [participants, rename, List.map_cons, List.map_map]
      rfl

end Roster

variable {lines : List Line}

/-- The names of the mentions are those of the chart. -/
theorem mem_firstMentions_of_mem_mentions {m : Mention} (hm : m ∈ mentions lines) :
    ∀ name ∈ m.name, name ∈ Line.firstMentions lines := by
  intro name hname
  rw [← eraseDups_names_mentions, List.mem_eraseDups]
  exact List.mem_filterMap.mpr ⟨m, hm, hname⟩

section

variable (hinj : Set.InjOn g {name | name ∈ Line.firstMentions lines})
  (hmeasure : ∀ name ∈ Line.firstMentions lines,
    measurer (g name) layout.participantFontSize = measurer name layout.participantFontSize)

include hinj hmeasure in
/-- The pass over renamed lines is the renamed pass. -/
theorem follows_resolveParticipants :
    Run.Follows (List.map (Participant.rename g)) (resolveParticipants measurer layout lines)
      (resolveParticipants measurer layout (lines.map (Line.rename g))) := by
  unfold resolveParticipants
  rw [mentions_rename, Line.interactions_rename, List.length_map]
  refine Run.Follows.bind_same _ fun start _ => ?_
  have hnone : ∀ p ∈ ({ cursor := start } : Roster).entries,
      p.name ∈ {name | name ∈ Line.firstMentions lines} := by simp
  -- the invariant is that all names known so far are names of the chart
  have hpass := Roster.follows_foldlM hinj hnone hmeasure
    fun m hm => mem_firstMentions_of_mem_mentions hm
  refine hpass.bind fun roster _ => ?_
  dsimp only
  rw [Roster.participants_rename, List.length_map, List.isEmpty_map]
  split
  · exact Run.Follows.pure _ []
  · exact Run.Follows.bind_same _ fun _ _ => Run.Follows.pure _ _

end

/-! ### The pass over the interactions -/

section

variable {ps : List Participant} {is : List Interaction}
  (hinj : Set.InjOn g names) (hps : ∀ p ∈ ps, p.name ∈ names)
include hinj hps

theorem lastNamed?_rename {name : String} {p : Participant} (h : lastNamed? ps name = some p) :
    lastNamed? (ps.map (Participant.rename g)) (g name) = some (p.rename g) := by
  have hname : name ∈ names := by
    obtain ⟨hp, rfl⟩ := mem_of_lastNamed? h
    exact hps p hp
  rw [lastNamed?, List.findRev?_eq_find?_reverse] at h ⊢
  have hsame : ps.reverse.find? ((fun q => q.name = g name) ∘ Participant.rename g) = some p := by
    rw [← h]
    refine List.find?_congr fun q hq => ?_
    exact decide_eq_decide.mpr (hinj.eq_iff (hps q (List.mem_reverse.mp hq)) hname)
  rw [← List.map_reverse, List.find?_map, hsame]
  rfl

theorem bindEndpoint_rename {line : Line} {name : Option String} {p : Participant}
    (h : bindEndpoint ps line name = .ok p) :
    bindEndpoint (ps.map (Participant.rename g)) (line.rename g) (name.map g) =
      .ok (p.rename g) := by
  obtain ⟨n, rfl, hfind⟩ := bindEndpoint_eq_ok.mp h
  exact bindEndpoint_eq_ok.mpr ⟨g n, rfl, lastNamed?_rename hinj hps hfind⟩

/-- Renamed lines are bound to renamed participants. -/
theorem bindLines_rename (h : bindLines ps lines = .ok is) :
    bindLines (ps.map (Participant.rename g)) (lines.map (Line.rename g)) =
      .ok (is.map (Interaction.rename g)) := by
  rw [bindLines, mapM_eq_ok] at h ⊢
  rw [Line.interactions_rename, List.zipIdx_map, List.forall₂_map_left_iff,
    List.forall₂_map_right_iff]
  refine h.imp ?_
  rintro ⟨line, row⟩ i hi
  obtain ⟨sender, receiver, hs, hr, rfl⟩ := bindLine_eq_ok.mp hi
  exact bindLine_eq_ok.mpr ⟨_, _, bindEndpoint_rename hinj hps hs,
    bindEndpoint_rename hinj hps hr, rfl⟩

end

/-! ### The canvas -/

theorem boxHeight_rename (ps : List Participant) (layout : Layout) :
    boxHeight (ps.map (Participant.rename g)) layout = boxHeight ps layout := by
  cases ps with
  | nil => rfl
  | cons first rest =>
      simp only [List.map_cons, boxHeight, List.map_map]
      rfl

/-- The size of the canvas does not depend on the names. -/
theorem canvasSize_rename (ps : List Participant) (interactions : Nat) (layout : Layout) :
    canvasSize (ps.map (Participant.rename g)) interactions layout =
      canvasSize ps interactions layout := by
  simp only [canvasSize, canvasWidth, canvasHeight, boxHeight_rename, List.length_map,
    List.map_map]
  rfl

/-! ### Built diagrams -/

namespace Diagram

/-- **Names are only told apart and measured.**  Let every name on the
interaction lines be exchanged for another one, different names for different
ones, that the measurer treats alike.  The build then gives the same notices
and ends the same way, with the same diagram but for the names in it. -/
theorem build_rename (hnamed : Line.Named lines)
    (hinj : Set.InjOn g {name | name ∈ Line.firstMentions lines})
    (hmeasure : ∀ name ∈ Line.firstMentions lines,
      measurer (g name) layout.participantFontSize = measurer name layout.participantFontSize)
    (s : σ) :
    (build measurer layout (lines.map (Line.rename g)) s).result =
        (build measurer layout lines s).result.map (rename g) ∧
      (build measurer layout (lines.map (Line.rename g)) s).state =
        (build measurer layout lines s).state ∧
      (build measurer layout (lines.map (Line.rename g)) s).notices =
        (build measurer layout lines s).notices := by
  suffices h : Run.Follows (rename g) (build measurer layout lines)
      (build measurer layout (lines.map (Line.rename g))) from
    ⟨h.result s, h.state s, h.notices s⟩
  unfold build
  rw [Line.issues_rename, forM_reportIssue_rename, Header.collect_rename]
  refine Run.Follows.bind_same _ fun _ _ => ?_
  refine (follows_resolveParticipants hinj hmeasure).bind fun ps hps => ?_
  obtain ⟨s, hps⟩ := hps
  -- the resolved names are those of the lines, so the second pass finds them
  have hwithin : ∀ p ∈ ps, p.name ∈ Line.firstMentions lines := by
    intro p hp
    rw [← eraseDups_names_mentions, ← (records_of_resolveParticipants hps).names]
    exact List.mem_map_of_mem hp
  obtain ⟨is, hbound⟩ := exists_bindLines hnamed hps
  have hfollows : Run.Follows (List.map (Interaction.rename g))
      (resolveInteractions ps lines : Run σ _)
      (resolveInteractions (ps.map (Participant.rename g)) (lines.map (Line.rename g))) := by
    unfold resolveInteractions
    rw [hbound, bindLines_rename hinj hwithin hbound]
    dsimp only
    rw [List.length_map]
    exact Run.Follows.bind_same _ fun _ _ => Run.Follows.pure _ _
  refine hfollows.bind fun is _ => ?_
  rw [List.length_map, canvasSize_rename, boxHeight_rename]
  refine Run.Follows.bind_same _ fun canvas _ => ?_
  refine Run.Follows.bind_same _ fun _ _ => ?_
  exact Run.Follows.bind_same _ fun height _ => Run.Follows.pure _ _

/-- Two names change places, on an ignored line too. -/
theorem build_rename_swapped :
    let g (name : String) := if name = "Ann" then "Bob" else if name = "Bob" then "Ann" else name
    let lines := Line.classifyAll ["Ann -> Bob: hi", "# note", "Cy -> Ann", "Bob -> Bob"] ++
      [{ number := 4, text := "none", kind := .invalid, sender := some "Ann" }]
    ∃ d : Diagram, (build (.fixedWidth 10 20) {} lines ()).result = .ok d ∧
      (build (.fixedWidth 10 20) {} (lines.map (Line.rename g)) ()).result = .ok (d.rename g) ∧
      d.participants.map Participant.name = ["Ann", "Bob", "Cy"] ∧
      (d.rename g).participants.map Participant.name = ["Bob", "Ann", "Cy"] ∧
      (d.rename g).issues.map Line.sender = [some "Bob"] := by
  intro g lines
  have hmentions : Line.firstMentions lines = ["Ann", "Bob", "Cy"] := by
    decide +kernel
  have hfields : (build (.fixedWidth 10 20) {} lines ()).result.map
      (fun d => (d.participants.map Participant.name, d.issues.map Line.sender)) =
      .ok (["Ann", "Bob", "Cy"], [some "Ann"]) := by
    decide +kernel
  obtain ⟨d, hd, hfields⟩ := map_eq_ok.mp hfields
  obtain ⟨hnames, hissues⟩ := Prod.mk.inj hfields
  have hinj : Set.InjOn g {name | name ∈ Line.firstMentions lines} := by
    rw [hmentions]
    have hdistinct : (["Ann", "Bob", "Cy"].map g).Nodup := by decide
    exact fun a ha b hb => List.inj_on_of_nodup_map hdistinct ha hb
  have hmeasure : ∀ name ∈ Line.firstMentions lines,
      (Measurer.fixedWidth 10 20 : Measurer Unit) (g name) ({} : Layout).participantFontSize =
        Measurer.fixedWidth 10 20 name ({} : Layout).participantFontSize := by
    rw [hmentions]
    intro name hname
    have hlength : (g name).length = name.length := by
      have hall : ∀ name ∈ ["Ann", "Bob", "Cy"], (g name).length = name.length := by decide
      exact hall name hname
    funext s
    show (⟨[], s, .ok ⟨.int (10 * (g name).length), .int 20⟩⟩ : Trace Unit Size) = _
    rw [hlength]
    rfl
  obtain ⟨hrenamed, -, -⟩ := build_rename (by decide +kernel) hinj hmeasure ()
  refine ⟨d, hd, by rw [hrenamed, hd]; rfl, hnames, ?_, ?_⟩
  · have hmap : (d.rename g).participants.map Participant.name =
        (d.participants.map Participant.name).map g := by
      rw [rename, List.map_map, List.map_map]
      rfl
    rw [hmap, hnames]
    decide
  · have hmap : (d.rename g).issues.map Line.sender =
        (d.issues.map Line.sender).map (Option.map g) := by
      rw [rename, List.map_map, List.map_map]
      rfl
    rw [hmap, hissues]
    decide

end Diagram

end SequenceChart
