/-
SequenceChart/Proofs/Interleaving.lean

What a chart takes from its lines.

The passes over the participants and the interactions read what the
interaction lines say (`Line.payloads`), and the header is gathered from the
directives that set a field of it (`Line.settings`).  How these are interleaved
with each other and with blank lines, comments and issues, shows in the line
numbers and the issues of a diagram, and in nothing else: two sources of the
same payloads and settings fail alike or give charts that look the same
(`Diagram.interleaving_independent`).

The pass over the participants is the same run for the same payloads
(`resolveParticipants_congr`), so the measurer is asked the same questions.
The interactions then agree row by row, up to the numbers of their lines.
-/
import SequenceChart.Proofs.Continuation
import SequenceChart.Proofs.Measuring
import SequenceChart.Proofs.Rendering
import SequenceChart.Proofs.Role

namespace SequenceChart

variable {σ : Type} {measurer : Measurer σ} {layout : Layout}

namespace Line

/-- What an interaction line says. -/
structure Payload where
  sender : Option String
  receiver : Option String
  message : Option String
  deriving DecidableEq, Repr

/-- What a line says if it is an interaction. -/
def payload (line : Line) : Payload :=
  { sender := line.sender, receiver := line.receiver, message := line.message }

/-- What the interaction lines say, in document order. -/
def payloads (lines : List Line) : List Payload :=
  (interactions lines).map payload

/-- What the directives set that set anything, in document order. -/
def settings (lines : List Line) : List (Directive.Kind × String) :=
  ((lines.filterMap Header.directiveOf?).filter fun d => d.kind ≠ .unknown).map
    fun d => (d.kind, d.value)

end Line

open Line

/-! ### The header -/

namespace Header

/-- Apply a setting. -/
def set (header : Header) (setting : Directive.Kind × String) : Header :=
  header.apply { kind := setting.1, value := setting.2 }

theorem apply_eq_set (header : Header) (d : Directive) :
    header.apply d = header.set (d.kind, d.value) :=
  rfl

/-- A header is made up of the settings, and of nothing else in the lines. -/
theorem collect_eq_foldl (lines : List Line) : collect lines = (settings lines).foldl set {} := by
  unfold collect settings
  generalize lines.filterMap directiveOf? = ds
  generalize ({} : Header) = header
  induction ds generalizing header with
  | nil => rfl
  | cons d ds ih =>
      rw [List.foldl_cons, ih]
      by_cases hunknown : d.kind = .unknown
      · simp [hunknown, apply]
      · simp [hunknown, apply_eq_set]

end Header

/-! ### The passes -/

section

variable {lines lines' : List Line}

theorem mentions_eq_flatMap (lines : List Line) :
    mentions lines =
      ((Line.interactions lines).map fun line => (line.sender, line.receiver)).zipIdx.flatMap
        fun (names, row) => [⟨row, names.1⟩, ⟨row, names.2⟩] := by
  rw [mentions, List.zipIdx_map, List.flatMap_map]
  rfl

/-- The pass over the participants runs on the names of the endpoints. -/
theorem resolveParticipants_congr_names
    (h : ((Line.interactions lines).map fun line => (line.sender, line.receiver)) =
      (Line.interactions lines').map fun line => (line.sender, line.receiver)) :
    resolveParticipants measurer layout lines = resolveParticipants measurer layout lines' := by
  have hlength : (Line.interactions lines).length = (Line.interactions lines').length := by
    simpa using congrArg List.length h
  rw [resolveParticipants, resolveParticipants, mentions_eq_flatMap lines,
    mentions_eq_flatMap lines', h, hlength]

/-- So it is the same run for the same payloads. -/
theorem resolveParticipants_congr (h : payloads lines = payloads lines') :
    resolveParticipants measurer layout lines = resolveParticipants measurer layout lines' := by
  refine resolveParticipants_congr_names ?_
  have hnames := congrArg (List.map fun payload : Payload => (payload.sender, payload.receiver)) h
  rwa [payloads, payloads, List.map_map, List.map_map] at hnames

/-- With a pure measurer the pass does not depend on the state. -/
theorem steady_resolveParticipants (hpure : measurer.Pure) (lines : List Line) :
    (resolveParticipants measurer layout lines).Steady := by
  refine Run.Steady.bind (Run.Steady.ofCalc _) fun start => ?_
  refine (Run.Steady.foldlM (Roster.steady_mention hpure) _).bind fun roster => ?_
  dsimp only
  split
  · exact Run.Steady.pure _
  · exact (Run.Steady.notify _).bind fun _ => Run.Steady.pure _

end

section

variable {texts texts' : List String} {ps : List Participant} {is js : List Interaction}

theorem exists_classify_of_mem {line : Line} (h : line ∈ Line.interactions (classifyAll texts)) :
    ∃ text number, line = classify text number ∧ (classify text number).isInteraction := by
  obtain ⟨hmem, hkind⟩ := List.mem_filter.mp h
  obtain ⟨j, text, -, rfl⟩ := mem_classifyAll.mp hmem
  exact ⟨text, j, rfl, hkind⟩

/-- Who an endpoint is bound to depends on its name alone. -/
theorem bindEndpoint_unique {line line' : Line} {name : Option String} {p q : Participant}
    (hp : bindEndpoint ps line name = .ok p) (hq : bindEndpoint ps line' name = .ok q) : p = q := by
  obtain ⟨n, rfl, hfind⟩ := bindEndpoint_eq_ok.mp hp
  obtain ⟨m, hm, hfind'⟩ := bindEndpoint_eq_ok.mp hq
  obtain rfl := Option.some.inj hm
  exact Option.some.inj (hfind.symm.trans hfind')

/-- Lines of one payload are bound alike. -/
theorem unnumbered_bindLine {text text' : String} {number number' : Int} {row : Nat}
    {i j : Interaction} (hkind : (classify text number).isInteraction)
    (hkind' : (classify text' number').isInteraction)
    (h : (classify text number).payload = (classify text' number').payload)
    (hi : bindLine ps (classify text number) row = .ok i)
    (hj : bindLine ps (classify text' number') row = .ok j) : i.unnumbered = j.unnumbered := by
  obtain ⟨hsender, hreceiver, hmessage⟩ := Payload.mk.inj h
  have hsame : i.message = j.message :=
    (message_bindLine hkind hi).symm.trans (hmessage.trans (message_bindLine hkind' hj))
  obtain ⟨sender, receiver, hs, hr, rfl⟩ := bindLine_eq_ok.mp hi
  obtain ⟨sender', receiver', hs', hr', rfl⟩ := bindLine_eq_ok.mp hj
  obtain rfl := bindEndpoint_unique (hsender ▸ hs) hs'
  obtain rfl := bindEndpoint_unique (hreceiver ▸ hr) hr'
  dsimp only at hsame
  rw [Interaction.unnumbered, Interaction.unnumbered, hsame]

/-- The same payloads give the same rows. -/
theorem unnumbered_bindLines (h : payloads (classifyAll texts) = payloads (classifyAll texts'))
    (hi : bindLines ps (classifyAll texts) = .ok is)
    (hj : bindLines ps (classifyAll texts') = .ok js) :
    is.map Interaction.unnumbered = js.map Interaction.unnumbered := by
  rw [map_eq_map_iff_forall₂]
  refine forall₂_of_bindLines (map_eq_map_iff_forall₂.mp h) hi hj ?_
  intro line hline line' hline' hpayload row i j hbound hbound'
  obtain ⟨text, number, rfl, hkind⟩ := exists_classify_of_mem hline
  obtain ⟨text', number', rfl, hkind'⟩ := exists_classify_of_mem hline'
  exact unnumbered_bindLine hkind hkind' hpayload hbound hbound'

end

/-! ### Built diagrams -/

namespace Diagram

/-- The diagrams are the same chart, with its lines in other places of the
source. -/
structure SameChart (d e : Diagram) : Prop where
  participants : d.participants = e.participants
  interactions : d.interactions.map Interaction.unnumbered =
    e.interactions.map Interaction.unnumbered
  canvas : d.canvas = e.canvas
  boxHeight : d.boxHeight = e.boxHeight
  header : d.header = e.header
  layout : d.layout = e.layout

namespace SameChart

variable {d e : Diagram}

theorem visible (h : d.SameChart e) : d.visible = e.visible := by
  unfold Diagram.visible
  rw [h.participants, h.interactions, h.canvas, h.boxHeight, h.header, h.layout]

theorem picture (h : d.SameChart e) (appearance : Appearance) :
    d.picture appearance = e.picture appearance := by
  rw [Diagram.picture, Diagram.picture, h.header, draw_congr h.visible]

end SameChart

/-- Two calculations fail with one fault, or give diagrams of the same chart. -/
def Alike (r r' : Except Fault Diagram) : Prop :=
  (∃ fault, r = .error fault ∧ r' = .error fault) ∨
    ∃ d e, r = .ok d ∧ r' = .ok e ∧ d.SameChart e

variable {texts texts' : List String}

/-- With the same participants, what is left to calculate is the same. -/
theorem alike_ofParticipants
    (hpayloads : payloads (classifyAll texts) = payloads (classifyAll texts'))
    (hsettings : settings (classifyAll texts) = settings (classifyAll texts'))
    {ps : List Participant} {is js : List Interaction}
    (hi : bindLines ps (classifyAll texts) = .ok is)
    (hj : bindLines ps (classifyAll texts') = .ok js) :
    Alike (ofParticipants layout (classifyAll texts) ps)
      (ofParticipants layout (classifyAll texts') ps) := by
  have hrows := unnumbered_bindLines hpayloads hi hj
  have hlength : is.length = js.length := by simpa using congrArg List.length hrows
  have hheader : Header.collect (classifyAll texts) = Header.collect (classifyAll texts') := by
    rw [Header.collect_eq_foldl, Header.collect_eq_foldl, hsettings]
  rw [ofParticipants_of_bindLines hi, ofParticipants_of_bindLines hj, hlength]
  rcases hcanvas : canvasSize ps js.length layout with e | canvas
  · exact .inl ⟨_, rfl, rfl⟩
  · rcases hheight : SequenceChart.boxHeight ps layout with e | height
    · exact .inl ⟨_, rfl, rfl⟩
    · exact .inr ⟨_, _, rfl, rfl, rfl, hrows, rfl, rfl, hheader, rfl⟩

/-- Builds of the same payloads and settings come out alike. -/
theorem alike_ofLines (hpure : measurer.Pure)
    (hpayloads : payloads (classifyAll texts) = payloads (classifyAll texts'))
    (hsettings : settings (classifyAll texts) = settings (classifyAll texts')) (s s' : σ) :
    Alike (ofLines measurer layout texts s).result (ofLines measurer layout texts' s').result := by
  have hresolve : (resolveParticipants measurer layout (classifyAll texts') s').result =
      (resolveParticipants measurer layout (classifyAll texts) s).result := by
    rw [resolveParticipants_congr hpayloads]
    exact steady_resolveParticipants hpure _ s' s
  rw [ofLines, ofLines, build_result, build_result, hresolve]
  rcases hps : (resolveParticipants measurer layout (classifyAll texts) s).result with fault | ps
  · exact .inl ⟨fault, rfl, rfl⟩
  · -- neither build misses a participant of the other's
    obtain ⟨is, hi⟩ := exists_bindLines (named_classifyAll texts) hps
    obtain ⟨js, hj⟩ := exists_bindLines (named_classifyAll texts') (hresolve.trans hps)
    exact alike_ofParticipants hpayloads hsettings hi hj

/-- **What is in between makes no difference.**  If two sources have the same
interactions in the same order, and the same settings of the header in the same
order, then for every pure measurer both fail with the same fault, or they give
the same chart but for the numbers of its lines; and whatever the appearance,
they are rendered to the same SVG text, or fail alike. -/
theorem interleaving_independent (hpure : measurer.Pure)
    (hpayloads : payloads (classifyAll texts) = payloads (classifyAll texts'))
    (hsettings : settings (classifyAll texts) = settings (classifyAll texts')) (s s' : σ) :
    ((∃ fault, (ofLines measurer layout texts s).result = .error fault ∧
        (ofLines measurer layout texts' s').result = .error fault) ∨
      ∃ d e, (ofLines measurer layout texts s).result = .ok d ∧
        (ofLines measurer layout texts' s').result = .ok e ∧ d.SameChart e ∧
        ∀ palette font transparent,
          d.draw palette font transparent = e.draw palette font transparent) ∧
    ∀ appearance, (renderLines measurer layout appearance texts s).result =
      (renderLines measurer layout appearance texts' s').result := by
  obtain ⟨fault, hd, he⟩ | ⟨d, e, hd, he, hsame⟩ := alike_ofLines hpure hpayloads hsettings s s'
  · refine ⟨.inl ⟨fault, hd, he⟩, fun appearance => ?_⟩
    rw [renderLines_result, renderLines_result, hd, he]
  · refine ⟨.inr ⟨d, e, hd, he, hsame, draw_congr hsame.visible⟩, fun appearance => ?_⟩
    rw [renderLines_result, renderLines_result, hd, he]
    exact hsame.picture appearance

/-- A chart with its title in between, and the same chart with much else. -/
theorem interleaving_independent_noisy :
    let texts := ["A -> B: x", ":title T", "B -> B"]
    let texts' := [":colour red", ":title  T", "", "A->B:x", "# note", "none", " B --> B "]
    ∃ d e : Diagram, (ofLines (.fixedWidth 10 20) {} texts ()).result = .ok d ∧
      (ofLines (.fixedWidth 10 20) {} texts' ()).result = .ok e ∧
      d.issues.length = 0 ∧ e.issues.length = 2 ∧ d.SameChart e := by
  intro texts texts'
  have hissues : (ofLines (.fixedWidth 10 20) {} texts ()).result.map (·.issues.length) =
      .ok 0 := by
    decide +kernel
  have hissues' : (ofLines (.fixedWidth 10 20) {} texts' ()).result.map (·.issues.length) =
      .ok 2 := by
    decide +kernel
  obtain ⟨d, hd, hnone⟩ := map_eq_ok.mp hissues
  obtain ⟨e, he, htwo⟩ := map_eq_ok.mp hissues'
  refine ⟨d, e, hd, he, hnone, htwo, ?_⟩
  have hpure : (Measurer.fixedWidth 10 20 : Measurer Unit).Pure := Measurer.pure_ofFunction _
  -- the two texts say the same, up to lines that say nothing
  have hpayloads : payloads (classifyAll texts) = payloads (classifyAll texts') := by
    decide +kernel
  have hsettings : settings (classifyAll texts) = settings (classifyAll texts') := by
    decide +kernel
  obtain ⟨⟨fault, hfault, -⟩ | ⟨d', e', hd', he', hsame, -⟩, -⟩ :=
    @interleaving_independent _ _ {} _ _ hpure hpayloads hsettings () ()
  · cases hd.symm.trans hfault
  · obtain rfl := Except.ok.inj (hd.symm.trans hd')
    obtain rfl := Except.ok.inj (he.symm.trans he')
    exact hsame

end Diagram

end SequenceChart
