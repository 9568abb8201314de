/-
SequenceChart/Proofs/Measuring.lean

What a build asks of its measurer, and how it may fail.

Here the measurer is a function of a text and its font size that may refuse a
text.  Two things are shown for lines whose interactions are named.

* The passes never contradict each other: a build fails with a fault of the
  function or one of the arithmetic, and with nothing else
  (`Diagram.failsWith_build`).  The first pass has entered every name that the
  second one looks up.
* In whole numbers the arithmetic cannot fail, and then the requests are
  exactly the distinct names in the order of first mention, up to the first
  one that is refused (`Diagram.yields_build`, `Diagram.yields_build_refused`).

The order of the requests is read off the roster: a name is asked for when it
is not yet entered, and `Records` says which names are.
-/
import SequenceChart.Proofs.Build
import SequenceChart.Proofs.Integral

namespace SequenceChart

open FirstOccurrence

variable {σ : Type} {f : String → Quantity → Except Fault Size} {layout : Layout}

/-- The requests for names in the size of the participants' labels. -/
def Layout.nameRequests (layout : Layout) (names : List String) : List (String × Quantity) :=
  names.map fun name => (name, layout.participantFontSize)

theorem Layout.nameRequests_concat (names : List String) (name : String) :
    layout.nameRequests (names ++ [name]) =
      layout.nameRequests names ++ [(name, layout.participantFontSize)] := by
  simp [nameRequests]

theorem Layout.nodup_nameRequests (layout : Layout) {names : List String} (h : names.Nodup) :
    (layout.nameRequests names).Nodup :=
  h.map fun _ _ heq => congrArg Prod.fst heq

/-- Either all names can be measured, or one is the first that is refused. -/
theorem all_or_first_refused (f : String → Quantity → Except Fault Size) (fontSize : Quantity)
    (names : List String) :
    (∀ name ∈ names, ∃ size, f name fontSize = .ok size) ∨
      ∃ before name after fault, names = before ++ name :: after ∧
        (∀ name ∈ before, ∃ size, f name fontSize = .ok size) ∧
        f name fontSize = .error fault := by
  induction names with
  | nil => exact .inl (by simp)
  | cons first rest ih =>
      rcases hfirst : f first fontSize with fault | size
      -- either the first name is the one that is refused, or it is one more that is not
      · exact .inr ⟨[], first, rest, fault, rfl, by simp, hfirst⟩
      · rcases ih with hall | ⟨before, name, after, fault, rfl, hbefore, h⟩
        · refine .inl fun name hname => ?_
          rcases List.mem_cons.mp hname with rfl | hname
          · exact ⟨size, hfirst⟩
          · exact hall name hname
        · refine .inr ⟨first :: before, name, after, fault, rfl, fun n hn => ?_, h⟩
          rcases List.mem_cons.mp hn with rfl | hn
          · exact ⟨size, hfirst⟩
          · exact hbefore n hn

/-! ### A single mention -/

theorem Measurer.failsWith_ask {measurer : Measurer σ} {P : Fault → Prop} {text : String}
    {fontSize : Quantity} (h : (measurer text fontSize).FailsWith P) :
    (measurer.ask text fontSize).FailsWith P := h

theorem Measurer.yields_ask {text : String} {fontSize : Quantity} {result : Except Fault Size}
    (h : f text fontSize = result) :
    Run.Yields ((ofFunction f).ask text fontSize : Run σ Size) [(text, fontSize)] result :=
  ⟨fun _ => rfl, fun _ => h⟩

namespace Roster

variable {roster : Roster}

/-- A mention fails as the arithmetic does or as its name is refused. -/
theorem failsWith_mention {measurer : Measurer σ} {P : Fault → Prop}
    (harith : ∀ e, P (.arithmetic e)) {m : Mention} (hname : m.name ≠ none)
    (hm : ∀ name, m.name = some name → (measurer name layout.participantFontSize).FailsWith P) :
    (mention measurer layout roster m).FailsWith P := by
  obtain ⟨row, - | name⟩ := m
  · exact absurd rfl hname
  · unfold mention
    by_cases hk : roster.knows name
    · -- extending a span is no calculation
      simp only [hk, if_true]
      exact Run.FailsWith.pure _
    · simp only [hk]
      refine (Measurer.failsWith_ask (hm name rfl)).bind fun size _ => ?_
      refine (Run.FailsWith.ofCalc harith _).bind fun gap _ => ?_
      refine (Run.FailsWith.ofCalc harith _).bind fun advance _ => ?_
      exact (Run.FailsWith.ofCalc harith _).bind fun cursor _ => Run.FailsWith.pure _

/-- A known name is not asked for again. -/
theorem yields_mention_known {row : Nat} {name : String} (hk : roster.knows name) :
    Run.Yields (mention (.ofFunction f) layout roster ⟨row, some name⟩ : Run σ Roster) []
      (.ok (roster.extend name row)) := by
  simp only [mention, hk, if_true]
  exact Run.Yields.pure _

/-- Where a new name is refused, the mention stops after asking for it. -/
theorem yields_mention_refused {row : Nat} {name : String} {fault : Fault}
    (hk : ¬ roster.knows name) (h : f name layout.participantFontSize = .error fault) :
    Run.Yields (mention (.ofFunction f) layout roster ⟨row, some name⟩ : Run σ Roster)
      [(name, layout.participantFontSize)] (.error fault) := by
  simp only [mention, hk]
  exact (Measurer.yields_ask h).bind_error _

/-- Whether the cursor and all labels of the roster are integers. -/
structure IsInt (roster : Roster) : Prop where
  cursor : roster.cursor.IsInt
  entries : ∀ p ∈ roster.entries, p.IsInt

theorem IsInt.extend (h : roster.IsInt) (name : String) (row : Nat) :
    (roster.extend name row).IsInt := by
  refine ⟨h.cursor, fun p hp => ?_⟩
  obtain ⟨q, hq, rfl⟩ := List.mem_map.mp hp
  obtain ⟨hwidth, hheight⟩ := h.entries q hq
  split <;> exact ⟨hwidth, hheight⟩

theorem IsInt.newcomer (h : roster.IsInt) (name : String) (row : Nat) {size : Size}
    (hsize : size.IsInt) (cursor : Int) :
    ({ entries := roster.entries ++ [roster.newcomer name row size]
       cursor := .int cursor } : Roster).IsInt := by
  refine ⟨Quantity.isInt_int _, fun p hp => ?_⟩
  rcases List.mem_append.mp hp with hp | hp
  · exact h.entries p hp
  · obtain rfl := List.mem_singleton.mp hp
    exact ⟨hsize.width, hsize.height⟩

/-- In whole numbers a new name is entered as soon as it is measured. -/
theorem yields_mention_new (hl : layout.IsInt) (hr : roster.IsInt) (row : Nat) {name : String}
    (hk : ¬ roster.knows name) {size : Size} (hsize : size.IsInt)
    (h : f name layout.participantFontSize = .ok size) :
    ∃ roster' : Roster, roster'.IsInt ∧
      Run.Yields (mention (.ofFunction f) layout roster ⟨row, some name⟩ : Run σ Roster)
        [(name, layout.participantFontSize)] (.ok roster') := by
  -- in whole numbers none of the three sums can fail
  have hgap := hl.participantGap
  have hadvance := hsize.width.add (Quantity.isInt_int
    (2 * layout.labelPadding.toInt + layout.horizontalGap.toInt))
  have hnext := hr.cursor.add (Quantity.isInt_int (size.width.toInt +
    (2 * layout.labelPadding.toInt + layout.horizontalGap.toInt)))
  refine ⟨{ entries := roster.entries ++ [roster.newcomer name row size]
            cursor := .int (roster.cursor.toInt + (size.width.toInt +
              (2 * layout.labelPadding.toInt + layout.horizontalGap.toInt))) },
    hr.newcomer name row hsize _, ?_⟩
  simp only [mention, hk]
  refine (Measurer.yields_ask h).bind ?_
  refine (Run.Yields.ofCalc hgap).bind ?_
  refine (Run.Yields.ofCalc hadvance).bind ?_
  exact (Run.Yields.ofCalc hnext).bind (Run.Yields.pure _)

/-! ### A pass over mentions -/

/-- In whole numbers a pass whose names can all be measured asks for each of
them once, in the order of first mention. -/
theorem yields_foldlM (hl : layout.IsInt) {start : Roster} (hstart : start.entries = [])
    (hr : start.IsInt) (s : σ) {ms : List Mention}
    (hsorted : ms.Pairwise fun m m' => m.row ≤ m'.row) (hnamed : ∀ m ∈ ms, m.name ≠ none)
    (hint : ∀ name size, f name layout.participantFontSize = .ok size → size.IsInt)
    (hf : ∀ name ∈ Mention.names ms, ∃ size, f name layout.participantFontSize = .ok size) :
    ∃ roster : Roster, roster.IsInt ∧
      Run.Yields (ms.foldlM (mention (.ofFunction f) layout) start : Run σ Roster)
        (layout.nameRequests (Mention.names ms).eraseDups) (.ok roster) := by
  -- on the mentions read so far: the last one is new or known to the roster
  -- that the earlier ones have left
  induction ms using List.reverseRecOn with
  | nil => exact ⟨start, hr, Run.Yields.pure start⟩
  | append_singleton ms m ih =>
      obtain ⟨row, - | name⟩ := m
      · exact absurd rfl (hnamed ⟨row, none⟩ (by simp))
      rw [Mention.names_concat] at hf ⊢
      rw [List.pairwise_append] at hsorted
      obtain ⟨roster, hroster, hy⟩ := ih hsorted.1
        (fun m hm => hnamed m (List.mem_append_left _ hm))
        (fun name hname => hf name (List.mem_append_left _ hname))
      -- the roster so far tells a new name from a known one
      have known : roster.knows name ↔ name ∈ Mention.names ms :=
        (records_of_foldlM hstart hsorted.1 (hy.result s)).knows_iff
      rw [List.foldlM_append]
      by_cases hk : roster.knows name
      · refine ⟨roster.extend name row, hroster.extend name row, ?_⟩
        have hmention : Run.Yields (mention (.ofFunction f) layout roster ⟨row, some name⟩ : Run σ _)
            [] (.ok (roster.extend name row)) := yields_mention_known hk
        rw [eraseDups_concat_of_mem (known.mp hk), ← List.append_nil (layout.nameRequests _)]
        exact hy.bind (hmention.bind (Run.Yields.pure _))
      · obtain ⟨size, hsize⟩ := hf name (by simp)
        obtain ⟨roster', hroster', hmention⟩ :=
          yields_mention_new hl hroster row hk (hint name size hsize) hsize
        refine ⟨roster', hroster', ?_⟩
        rw [eraseDups_concat_of_not_mem (mt known.mpr hk), Layout.nameRequests_concat]
        exact hy.bind (hmention.bind (Run.Yields.pure _))

/-- A pass stops at the first name that is refused, and fails as it was
refused. -/
theorem yields_foldlM_refused (hl : layout.IsInt) {start : Roster} (hstart : start.entries = [])
    (hr : start.IsInt) (s : σ) {ms : List Mention}
    (hsorted : ms.Pairwise fun m m' => m.row ≤ m'.row) (hnamed : ∀ m ∈ ms, m.name ≠ none)
    {before after : List String} {name : String} {fault : Fault}
    (hnames : (Mention.names ms).eraseDups = before ++ name :: after)
    (hint : ∀ name size, f name layout.participantFontSize = .ok size → size.IsInt)
    (hbefore : ∀ name ∈ before, ∃ size, f name layout.participantFontSize = .ok size)
    (h : f name layout.participantFontSize = .error fault) :
    Run.Yields (ms.foldlM (mention (.ofFunction f) layout) start : Run σ Roster)
      (layout.nameRequests (before ++ [name])) (.error fault) := by
  obtain ⟨front, back, hfront, rfl⟩ := exists_split_of_eraseDups hnames
  obtain ⟨ms₁, ms₂, rfl, hms₁, hms₂⟩ := List.filterMap_eq_append_iff.mp hfront
  obtain ⟨ms₃, m, ms₄, rfl, hms₃, hm, -⟩ := List.filterMap_eq_cons_iff.mp hms₂
  obtain ⟨row, oname⟩ := m
  obtain rfl : oname = some name := hm
  -- the mention that is refused comes after `ms₁ ++ ms₃`
  have hpast : Mention.names (ms₁ ++ ms₃) = front := by
    rw [Mention.names, List.filterMap_append, hms₁, List.filterMap_eq_nil_iff.mpr hms₃,
      List.append_nil]
  have hassoc : ms₁ ++ (ms₃ ++ ⟨row, some name⟩ :: ms₄) =
      (ms₁ ++ ms₃) ++ ⟨row, some name⟩ :: ms₄ := by simp
  rw [hassoc] at hsorted hnamed hnames ⊢
  rw [List.pairwise_append] at hsorted
  obtain ⟨roster, -, hy⟩ := yields_foldlM (f := f) hl hstart hr s hsorted.1
    (fun m hm => hnamed m (List.mem_append_left _ hm)) hint
    (fun name hname => hbefore name (List.mem_eraseDups.mpr (hpast ▸ hname)))
  -- and its name is none of theirs, since the distinct names are distinct
  have hnew : ¬ roster.knows name := by
    rw [(records_of_foldlM hstart hsorted.1 (hy.result s)).knows_iff, hpast,
      ← List.mem_eraseDups]
    have hnodup := nodup_eraseDups (Mention.names ((ms₁ ++ ms₃) ++ ⟨row, some name⟩ :: ms₄))
    rw [hnames, List.nodup_append] at hnodup
    exact fun hmem => hnodup.2.2 name hmem name (by simp) rfl
  rw [hpast] at hy
  rw [List.foldlM_append, Layout.nameRequests_concat]
  exact hy.bind ((yields_mention_refused hnew h).bind_error _)

end Roster

/-! ### Building -/

section

variable {lines : List Line}

/-- Without repetitions, who is mentioned is who is first mentioned. -/
theorem eraseDups_names_mentions (lines : List Line) :
    (Mention.names (mentions lines)).eraseDups = Line.firstMentions lines := by
  rw [names_mentions, Line.firstMentions]

/-- The pass over the participants only fails as the measurer does, or in its
arithmetic. -/
theorem failsWith_resolveParticipants {measurer : Measurer σ} {P : Fault → Prop}
    (harith : ∀ e, P (.arithmetic e)) (hnamed : Line.Named lines)
    (hm : ∀ name ∈ Line.firstMentions lines,
      (measurer name layout.participantFontSize).FailsWith P) :
    (resolveParticipants measurer layout lines).FailsWith P := by
  unfold resolveParticipants
  refine (Run.FailsWith.ofCalc harith _).bind fun start _ => ?_
  refine (Run.FailsWith.foldlM (fun roster m hmem => ?_) _).bind fun roster _ => ?_
  -- each name that is mentioned is among those that are asked for
  · refine Roster.failsWith_mention harith (name_ne_none_of_mem_mentions hnamed hmem) ?_
    intro name hname
    refine hm name ?_
    rw [← eraseDups_names_mentions, List.mem_eraseDups]
    exact List.mem_filterMap.mpr ⟨m, hmem, hname⟩
  · dsimp only
    split
    · exact Run.FailsWith.pure _
    · exact (Run.FailsWith.notify _).bind fun _ _ => Run.FailsWith.pure _

/-- What the second pass looks up, the first one has entered. -/
theorem exists_bindLines (hnamed : Line.Named lines) {measurer : Measurer σ} {s : σ}
    {ps : List Participant} (h : (resolveParticipants measurer layout lines s).result = .ok ps) :
    ∃ interactions, bindLines ps lines = .ok interactions := by
  refine bindLines_total hnamed fun name hname => ?_
  rw [(records_of_resolveParticipants h).names, eraseDups_names_mentions]
  exact hname

/-- To bind the interactions nothing is measured. -/
theorem yields_resolveInteractions {ps : List Participant} {interactions : List Interaction}
    (h : bindLines ps lines = .ok interactions) :
    Run.Yields (resolveInteractions ps lines : Run σ (List Interaction)) [] (.ok interactions) := by
  unfold resolveInteractions
  rw [h]
  exact (Run.Yields.notify _).bind (Run.Yields.pure _)

/-- **A build fails only for the reason of its measurer or of the
arithmetic.**  No endpoint is found to lack its name or its participant. -/
theorem Diagram.failsWith_build {P : Fault → Prop} (harith : ∀ e, P (.arithmetic e))
    (hnamed : Line.Named lines)
    (hf : ∀ name ∈ Line.firstMentions lines, ∀ fault,
      f name layout.participantFontSize = .error fault → P fault) :
    Run.FailsWith P (build (.ofFunction f) layout lines : Run σ Diagram) := by
  unfold build
  refine (Run.FailsWith.forM fun line _ => Run.FailsWith.notify _).bind fun _ _ => ?_
  have hm : ∀ name ∈ Line.firstMentions lines,
      ((Measurer.ofFunction f : Measurer σ) name layout.participantFontSize).FailsWith P :=
    fun name hname _ => hf name hname
  refine (failsWith_resolveParticipants harith hnamed hm).bind fun ps hps => ?_
  -- the participants come from the same lines, so no look-up can fail
  obtain ⟨s, hps⟩ := hps
  obtain ⟨interactions, hbound⟩ := exists_bindLines hnamed hps
  refine ((yields_resolveInteractions hbound).failsWith P).bind fun _ _ => ?_
  refine (Run.FailsWith.ofCalc harith _).bind fun canvas _ => ?_
  refine (Run.FailsWith.notify _).bind fun _ _ => ?_
  exact (Run.FailsWith.ofCalc harith _).bind fun height _ => Run.FailsWith.pure _

theorem isInt_inset (hl : layout.IsInt) :
    ∃ start, layout.inset = .ok start ∧ ({ cursor := start } : Roster).IsInt :=
  ⟨_, hl.inset, Quantity.isInt_int _, by simp⟩

/-- The participants of a roster in whole numbers are so too. -/
theorem Roster.IsInt.participants {roster : Roster} (h : roster.IsInt) :
    ∀ p ∈ roster.participants, p.IsInt := by
  intro p hp
  rcases hentries : roster.entries with - | ⟨first, rest⟩
  · simp [Roster.participants, hentries] at hp
  · have hfirst : first.IsInt := h.entries first (by simp [hentries])
    have hrest : ∀ q ∈ rest.map Participant.labelHeight, q.IsInt := by
      intro q hq
      obtain ⟨r, hr, rfl⟩ := List.mem_map.mp hq
      exact (h.entries r (by simp [hentries, hr])).labelHeight
    simp only [Roster.participants, hentries, Quantity.maximum_isInt hfirst.labelHeight hrest] at hp
    obtain ⟨q, hq, rfl⟩ := List.mem_map.mp hp
    exact ⟨(h.entries q (hentries ▸ hq)).labelWidth, Quantity.isInt_int _⟩

/-- In whole numbers each name is asked for once, and the pass succeeds. -/
theorem yields_resolveParticipants (hl : layout.IsInt) (hnamed : Line.Named lines) (s : σ)
    (hint : ∀ name size, f name layout.participantFontSize = .ok size → size.IsInt)
    (hf : ∀ name ∈ Line.firstMentions lines,
      ∃ size, f name layout.participantFontSize = .ok size) :
    ∃ ps : List Participant, (∀ p ∈ ps, p.IsInt) ∧
      Run.Yields (resolveParticipants (.ofFunction f) layout lines : Run σ (List Participant))
        (layout.nameRequests (Line.firstMentions lines)) (.ok ps) := by
  obtain ⟨start, hinset, hstart⟩ := isInt_inset hl
  rw [← eraseDups_names_mentions] at hf ⊢
  obtain ⟨roster, hroster, hpass⟩ := Roster.yields_foldlM (f := f) hl rfl hstart s
    (mentions_sorted lines) (fun m => name_ne_none_of_mem_mentions hnamed) hint
    (fun name hname => hf name (List.mem_eraseDups.mpr hname))
  refine ⟨roster.participants, hroster.participants, ?_⟩
  -- after the pass nothing is asked for, with or without participants
  have hend : Run.Yields (do
      if roster.participants.isEmpty then return []
      Run.notify (.participantsResolved roster.participants.length
        (Line.interactions lines).length)
      return roster.participants : Run σ (List Participant)) [] (.ok roster.participants) := by
    by_cases h : roster.participants = []
    · rw [h]
      exact Run.Yields.pure _
    · rw [if_neg (by simpa using h)]
      exact (Run.Yields.notify _).bind (Run.Yields.pure _)
  exact (Run.Yields.ofCalc hinset).bind (hpass.bind_quiet hend)

/-- At a name that is refused the pass stops, and no later one is asked for. -/
theorem yields_resolveParticipants_refused (hl : layout.IsInt) (hnamed : Line.Named lines) (s : σ)
    {before after : List String} {name : String} {fault : Fault}
    (hnames : Line.firstMentions lines = before ++ name :: after)
    (hint : ∀ name size, f name layout.participantFontSize = .ok size → size.IsInt)
    (hbefore : ∀ name ∈ before, ∃ size, f name layout.participantFontSize = .ok size)
    (h : f name layout.participantFontSize = .error fault) :
    Run.Yields (resolveParticipants (.ofFunction f) layout lines : Run σ (List Participant))
      (layout.nameRequests (before ++ [name])) (.error fault) := by
  obtain ⟨start, hinset, hstart⟩ := isInt_inset hl
  rw [← eraseDups_names_mentions] at hnames
  have hpass := Roster.yields_foldlM_refused hl rfl hstart s (mentions_sorted lines)
    (fun m => name_ne_none_of_mem_mentions hnamed) hnames hint hbefore h
  exact (Run.Yields.ofCalc hinset).bind (hpass.bind_error _)

theorem yields_reportIssues (lines : List Line) :
    Run.Yields (lines.forM Diagram.reportIssue : Run σ Unit) [] (.ok ()) :=
  Run.Yields.forM fun _ _ => Run.Yields.notify _

namespace Diagram

/-- What a build in whole numbers asks for if nothing is refused. -/
theorem yields_build (hl : layout.IsInt) (hnamed : Line.Named lines) (s : σ)
    (hint : ∀ name size, f name layout.participantFontSize = .ok size → size.IsInt)
    (hf : ∀ name ∈ Line.firstMentions lines,
      ∃ size, f name layout.participantFontSize = .ok size) :
    ∃ d, Run.Yields (build (.ofFunction f) layout lines : Run σ Diagram)
      (layout.nameRequests (Line.firstMentions lines)) (.ok d) := by
  obtain ⟨ps, hps, hresolve⟩ := yields_resolveParticipants hl hnamed s hint hf
  -- what follows the participants asks for nothing
  obtain ⟨interactions, hbound⟩ := exists_bindLines hnamed (hresolve.result s)
  obtain ⟨canvas, hcanvas, -⟩ := exists_canvasSize hl hps interactions.length
  obtain ⟨height, hheight⟩ : ∃ height, SequenceChart.boxHeight ps layout = .ok height :=
    ⟨_, boxHeight_isInt hl hps⟩
  refine ⟨{
    participants := ps
    interactions := interactions
    canvas := canvas
    boxHeight := height
    header := Header.collect lines
    issues := Line.issues lines
    layout := layout }, (yields_reportIssues _).bind (hresolve.bind_quiet ?_)⟩
  refine (yields_resolveInteractions hbound).bind ?_
  refine (Run.Yields.ofCalc hcanvas).bind ?_
  refine (Run.Yields.notify _).bind ?_
  exact (Run.Yields.ofCalc hheight).bind (Run.Yields.pure _)

/-- What it asks for if a name is refused: nothing after that name. -/
theorem yields_build_refused (hl : layout.IsInt) (hnamed : Line.Named lines) (s : σ)
    {before after : List String} {name : String} {fault : Fault}
    (hnames : Line.firstMentions lines = before ++ name :: after)
    (hint : ∀ name size, f name layout.participantFontSize = .ok size → size.IsInt)
    (hbefore : ∀ name ∈ before, ∃ size, f name layout.participantFontSize = .ok size)
    (h : f name layout.participantFontSize = .error fault) :
    Run.Yields (build (.ofFunction f) layout lines : Run σ Diagram)
      (layout.nameRequests (before ++ [name])) (.error fault) :=
  (yields_reportIssues _).bind <|
    (yields_resolveParticipants_refused hl hnamed s hnames hint hbefore h).bind_error _

/-- **A build is as reliable as its measurer, and asks it no more than it has
to.**

Let the measurer be a function that refuses a text only as unmeasurable, and
let the interaction lines be named, as those read from a source are.  A build
then never misses a participant or an endpoint name, whatever the layout.  In
whole numbers it asks for the distinct endpoint names in the order of first
mention, each of them once, up to the first one that is refused; it fails if
and only if one is, with the fault of the first. -/
theorem build_asks_firstMentions
    (hf : ∀ text fontSize fault, f text fontSize = .error fault →
      ∃ text' reason, fault = .diagram (.unmeasurable text' reason))
    (hlines : Line.Named lines ∨ ∃ texts, lines = Line.classifyAll texts) (s : σ) :
    (∀ number name text, (build (.ofFunction f) layout lines s).result ≠
      .error (.diagram (.missingParticipant number name text))) ∧
    (build (.ofFunction f) layout lines s).result ≠ .error .unnamedEndpoint ∧
    (layout.IsInt →
      (∀ name size, f name layout.participantFontSize = .ok size → size.IsInt) →
      (build (.ofFunction f) layout lines s).measurements.Nodup ∧
      ((∀ name ∈ Line.firstMentions lines, ∃ size, f name layout.participantFontSize = .ok size) →
        (build (.ofFunction f) layout lines s).measurements =
          layout.nameRequests (Line.firstMentions lines)) ∧
      (∀ before name after fault, Line.firstMentions lines = before ++ name :: after →
        (∀ name ∈ before, ∃ size, f name layout.participantFontSize = .ok size) →
        f name layout.participantFontSize = .error fault →
        (build (.ofFunction f) layout lines s).measurements =
            layout.nameRequests (before ++ [name]) ∧
          (build (.ofFunction f) layout lines s).result = .error fault) ∧
      ((∃ fault, (build (.ofFunction f) layout lines s).result = .error fault) ↔
        ∃ name ∈ Line.firstMentions lines, ∃ fault,
          f name layout.participantFontSize = .error fault)) := by
  have hnamed : Line.Named lines := by
    rcases hlines with h | ⟨texts, rfl⟩
    · exact h
    · exact Line.named_classifyAll texts
  have hfault : Run.FailsWith (fun fault => (∃ e, fault = .arithmetic e) ∨
      ∃ text reason, fault = .diagram (.unmeasurable text reason))
      (build (.ofFunction f) layout lines : Run σ Diagram) :=
    failsWith_build (fun e => .inl ⟨e, rfl⟩) hnamed
      fun name _ fault h => .inr (hf name _ fault h)
  refine ⟨?_, ?_, ?_⟩
  · intro number name text h
    rcases hfault s _ h with ⟨e, h⟩ | ⟨text', reason, h⟩ <;> cases h
  · intro h
    rcases hfault s _ h with ⟨e, h⟩ | ⟨text, reason, h⟩ <;> cases h
  intro hl hint
  have success := yields_build hl hnamed s hint
  have failure : ∀ before name after fault,
      Line.firstMentions lines = before ++ name :: after →
      (∀ name ∈ before, ∃ size, f name layout.participantFontSize = .ok size) →
      f name layout.participantFontSize = .error fault →
      Run.Yields (build (.ofFunction f) layout lines : Run σ Diagram)
        (layout.nameRequests (before ++ [name])) (.error fault) :=
    fun _ _ _ _ hnames hbefore h => yields_build_refused hl hnamed s hnames hint hbefore h
  have hnodup : (Line.firstMentions lines).Nodup := nodup_eraseDups _
  -- either way a prefix of the distinct names is asked for
  refine ⟨?_, ?_, ?_, ?_⟩
  · rcases all_or_first_refused f layout.participantFontSize (Line.firstMentions lines) with
      hall | ⟨before, name, after, fault, hnames, hbefore, h⟩
    · obtain ⟨d, hd⟩ := success hall
      rw [hd.measurements s]
      exact layout.nodup_nameRequests hnodup
    · rw [(failure before name after fault hnames hbefore h).measurements s]
      refine layout.nodup_nameRequests (hnodup.sublist ?_)
      rw [hnames]
      simp
  · intro hall
    obtain ⟨d, hd⟩ := success hall
    exact hd.measurements s
  · intro before name after fault hnames hbefore h
    have hy := failure before name after fault hnames hbefore h
    exact ⟨hy.measurements s, hy.result s⟩
  · constructor
    · rintro ⟨fault, hresult⟩
      rcases all_or_first_refused f layout.participantFontSize (Line.firstMentions lines) with
        hall | ⟨before, name, after, fault', hnames, -, h⟩
      · obtain ⟨d, hd⟩ := success hall
        rw [hd.result s] at hresult
        cases hresult
      · exact ⟨name, by rw [hnames]; simp, fault', h⟩
    · rintro ⟨name, hname, fault, h⟩
      rcases all_or_first_refused f layout.participantFontSize (Line.firstMentions lines) with
        hall | ⟨before, name', after, fault', hnames, hbefore, h'⟩
      · obtain ⟨size, hsize⟩ := hall name hname
        rw [h] at hsize
        cases hsize
      · exact ⟨fault', (failure before name' after fault' hnames hbefore h').result s⟩

/-- A measurer of whole numbers that refuses one text. -/
def refusing (refused text : String) (_ : Quantity) : Except Fault Size :=
  if text = refused then .error (.diagram (.unmeasurable text "no glyph"))
  else .ok { width := .int 10, height := .int 20 }

/-- `B` is mentioned twice and asked for once, `D` comes too late. -/
theorem build_asks_until_refused :
    (build (.ofFunction (refusing "C")) {}
        (Line.classifyAll ["A -> B", "B -> A: hello", "# again", "C -> B", "D -> A"]) ()).measurements
      = [("A", .int 18), ("B", .int 18), ("C", .int 18)] ∧
    (build (.ofFunction (refusing "C")) {}
        (Line.classifyAll ["A -> B", "B -> A: hello", "# again", "C -> B", "D -> A"]) ()).result
      = .error (.diagram (.unmeasurable "C" "no glyph")) := by
  have hf : ∀ text fontSize fault, refusing "C" text fontSize = .error fault →
      ∃ text' reason, fault = .diagram (.unmeasurable text' reason) := by
    intro text fontSize fault h
    unfold refusing at h
    split at h
    · exact ⟨text, "no glyph", (Except.error.inj h).symm⟩
    · cases h
  have hl : ({} : Layout).IsInt := by
    constructor <;> exact ⟨_, rfl⟩
  have hint : ∀ name size, refusing "C" name ({} : Layout).participantFontSize = .ok size →
      size.IsInt := by
    intro name size h
    unfold refusing at h
    split at h
    · cases h
    · obtain rfl := Except.ok.inj h
      exact ⟨Quantity.isInt_int 10, Quantity.isInt_int 20⟩
  obtain ⟨-, -, h⟩ := build_asks_firstMentions hf (.inr
    ⟨["A -> B", "B -> A: hello", "# again", "C -> B", "D -> A"], rfl⟩) ()
  refine (h hl hint).2.2.1 ["A", "B"] "C" ["D"] _ ?_ ?_ rfl
  · decide +kernel
  · intro name hname
    simp only [List.mem_cons, List.not_mem_nil, or_false] at hname
    rcases hname with rfl | rfl <;> exact ⟨_, rfl⟩

end Diagram

end

end SequenceChart
