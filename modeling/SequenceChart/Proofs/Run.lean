/-
SequenceChart/Proofs/Run.lean

Reasoning about runs without opening the sequencing of their steps.

Six views of a run are used by the rest of the theory:

* its result, which the inversion lemmas `bind_result_ok` and
  `bind_result_error` trace back to the steps that gave it;
* `Run.Steady m`, which says that the result of `m` is the same from every
  state;
* `Run.Still m`, which says that `m` leaves every state as it is;
* `Run.Quiet m`, which says that `m` gives no notice, from no state;
* `Run.FailsWith P m`, which says that every fault of `m` satisfies `P`;
* `Run.Yields m asked result`, which says what `m` asks to be measured and
  how it ends, from every state.

The last five are closed under sequencing, so that a statement about a pass
over a chart follows the steps of the pass.  So is `Concur R`, which says of two
calculations that they fail alike or give results that are related by `R`.
-/
import Mathlib.Data.List.Forall2
import SequenceChart.Run

namespace SequenceChart

/-! ### Calculations -/

/-- What a calculation in two steps results in. -/
theorem bind_eq_ok {ε α β : Type} {c : Except ε α} {f : α → Except ε β} {b : β} :
    (c >>= f) = .ok b ↔ ∃ a, c = .ok a ∧ f a = .ok b := by
  rcases c with e | a
  · simp [bind, Except.bind]
  · simp [bind, Except.bind]

/-- A calculation in two steps fails as one of them does. -/
theorem bind_eq_error {ε α β : Type} {c : Except ε α} {f : α → Except ε β} {e : ε} :
    (c >>= f) = .error e ↔ c = .error e ∨ ∃ a, c = .ok a ∧ f a = .error e := by
  rcases c with e' | a
  · simp [bind, Except.bind]
  · simp [bind, Except.bind]

theorem map_eq_ok {ε α β : Type} {c : Except ε α} {f : α → β} {b : β} :
    c.map f = .ok b ↔ ∃ a, c = .ok a ∧ f a = b := by
  rcases c with e | a <;> simp [Except.map]

theorem exists_of_isOk {ε α : Type} {c : Except ε α} (h : c.isOk) : ∃ a, c = .ok a := by
  rcases c with e | a
  · cases h
  · exact ⟨a, rfl⟩

/-- A calculation for every element of a list succeeds with the list of the
single results. -/
theorem mapM_eq_ok {ε α β : Type} {f : α → Except ε β} {xs : List α} {ys : List β} :
    xs.mapM f = .ok ys ↔ List.Forall₂ (fun x y => f x = .ok y) xs ys := by
  induction xs generalizing ys with
  | nil =>
      constructor
      · intro h
        obtain rfl : [] = ys := Except.ok.inj h
        exact .nil
      · rintro ⟨⟩
        rfl
  | cons x xs ih =>
      simp only [List.mapM_cons, bind_eq_ok, ih]
      constructor
      -- the first result and the list of the others
      · rintro ⟨y, hy, ys', hys, h⟩
        obtain rfl : y :: ys' = ys := Except.ok.inj h
        exact .cons hy hys
      · intro h
        cases h with
        | cons hy hys => exact ⟨_, hy, _, hys, rfl⟩

/-- If there is a result for each element, there is one for the list. -/
theorem exists_mapM_eq_ok {ε α β : Type} {f : α → Except ε β} {xs : List α}
    (h : ∀ x ∈ xs, ∃ y, f x = .ok y) : ∃ ys, xs.mapM f = .ok ys := by
  induction xs with
  | nil => exact ⟨[], rfl⟩
  | cons x xs ih =>
      obtain ⟨y, hy⟩ := h x (by simp)
      obtain ⟨ys, hys⟩ := ih fun z hz => h z (by simp [hz])
      exact ⟨y :: ys, mapM_eq_ok.mpr (.cons hy (mapM_eq_ok.mp hys))⟩

/-- What relates a single result to an image of its element, relates the results
to the images along the list. -/
theorem forall₂_of_mapM {ε α β γ : Type} {R : β → γ → Prop} {f : α → Except ε β} {g : α → γ}
    (hf : ∀ x y, f x = .ok y → R y (g x)) {xs : List α} {ys : List β} (h : xs.mapM f = .ok ys) :
    List.Forall₂ R ys (xs.map g) :=
  List.forall₂_map_right_iff.mpr (List.Forall₂.flip ((mapM_eq_ok.mp h).imp hf))

/-- It fails as it does for the first element for which it fails. -/
theorem mapM_eq_error {ε α β : Type} {f : α → Except ε β} {xs : List α} {e : ε} :
    xs.mapM f = .error e ↔
      ∃ before x after, xs = before ++ x :: after ∧ (∀ y ∈ before, ∃ b, f y = .ok b) ∧
        f x = .error e := by
  induction xs with
  | nil =>
      constructor
      · intro h
        cases h
      · rintro ⟨before, x, after, hxs, -⟩
        simp at hxs
  | cons first rest ih =>
      rw [List.mapM_cons, bind_eq_error]
      simp only [bind_eq_error, ih]
      constructor
      · rintro (h | ⟨b, hb, ⟨before, x, after, rfl, hbefore, hx⟩ | ⟨ys, -, h⟩⟩)
        · exact ⟨[], first, rest, rfl, by simp, h⟩
        · exact ⟨first :: before, x, after, rfl, List.forall_mem_cons.mpr ⟨⟨b, hb⟩, hbefore⟩, hx⟩
        · cases h
      · rintro ⟨before, x, after, hxs, hbefore, hx⟩
        -- the failing element is either the first one or among the others
        rcases before with - | ⟨y, before⟩
        · obtain ⟨rfl, rfl⟩ := List.cons.inj hxs
          exact .inl hx
        · obtain ⟨rfl, rfl⟩ := List.cons.inj hxs
          obtain ⟨⟨b, hb⟩, hbefore⟩ := List.forall_mem_cons.mp hbefore
          exact .inr ⟨b, hb, .inl ⟨before, x, after, rfl, hbefore, hx⟩⟩

/-! ### Two calculations side by side -/

/-- Both calculations fail with one fault, or both succeed with results that are
related by `R`. -/
inductive Concur {ε α β : Type} (R : α → β → Prop) : Except ε α → Except ε β → Prop
  | error (e : ε) : Concur R (.error e) (.error e)
  | ok {a : α} {b : β} : R a b → Concur R (.ok a) (.ok b)

namespace Concur

variable {ε α β γ δ : Type} {R : α → β → Prop} {S : γ → δ → Prop}

theorem mono {R' : α → β → Prop} {c : Except ε α} {c' : Except ε β} (h : Concur R c c')
    (hR : ∀ a b, R a b → R' a b) : Concur R' c c' := by
  cases h with
  | error e => exact .error e
  | ok hab => exact .ok (hR _ _ hab)

theorem bind {c : Except ε α} {c' : Except ε β} {f : α → Except ε γ} {f' : β → Except ε δ}
    (h : Concur R c c') (hf : ∀ a b, R a b → Concur S (f a) (f' b)) :
    Concur S (c >>= f) (c' >>= f') := by
  cases h with
  | error e => exact .error e
  | ok hab => exact hf _ _ hab

/-- A first step that the two have in common. -/
theorem bind_same {c : Except ε α} {f : α → Except ε γ} {f' : α → Except ε δ}
    (hf : ∀ a, c = .ok a → Concur S (f a) (f' a)) : Concur S (c >>= f) (c >>= f') := by
  rcases c with e | a
  · exact .error e
  · exact hf a rfl

theorem mapError {ε' : Type} (g : ε → ε') {c : Except ε α} {c' : Except ε β}
    (h : Concur R c c') : Concur R (c.mapError g) (c'.mapError g) := by
  cases h with
  | error e => exact .error (g e)
  | ok hab => exact .ok hab

/-- Calculations for the elements of two lists, pair by pair. -/
theorem mapM {T : γ → δ → Prop} {f : γ → Except ε α} {f' : δ → Except ε β} {xs : List γ}
    {ys : List δ} (h : List.Forall₂ T xs ys) (hf : ∀ x y, T x y → Concur R (f x) (f' y)) :
    Concur (List.Forall₂ R) (xs.mapM f) (ys.mapM f') := by
  induction h with
  | nil => exact .ok .nil
  | @cons x y xs ys hxy _ ih =>
      rw [List.mapM_cons, List.mapM_cons]
      refine (hf x y hxy).bind fun a b hab => ih.bind fun as bs habs => ?_
      exact .ok (.cons hab habs)

end Concur

namespace Run

variable {σ α β : Type}

/-! ### Results -/

/-- The result of a sequence is calculated from those of its steps. -/
theorem bind_result (m : Run σ α) (f : α → Run σ β) (s : σ) :
    ((m >>= f) s).result = ((m s).result >>= fun a => (f a (m s).state).result) := by
  rcases h : m s with ⟨events, s', fault | a⟩
  · rw [bind_apply_error h]
    rfl
  · rw [bind_apply_ok h]
    rfl

/-- Two steps succeed if the first one does, and the second one from the state that it
leaves. -/
theorem bind_result_ok {m : Run σ α} {f : α → Run σ β} {s : σ} {b : β} :
    ((m >>= f) s).result = .ok b ↔
      ∃ a, (m s).result = .ok a ∧ (f a (m s).state).result = .ok b := by
  rcases h : m s with ⟨events, s', fault | a⟩
  · rw [bind_apply_error h]
    simp
  · rw [bind_apply_ok h]
    simp

/-- Two steps fail if the first one does, or the second one after it. -/
theorem bind_result_error {m : Run σ α} {f : α → Run σ β} {s : σ} {fault : Fault} :
    ((m >>= f) s).result = .error fault ↔
      (m s).result = .error fault ∨
        ∃ a, (m s).result = .ok a ∧ (f a (m s).state).result = .error fault := by
  rcases h : m s with ⟨events, s', fault' | a⟩
  · rw [bind_apply_error h]
    simp
  · rw [bind_apply_ok h]
    simp

@[simp] theorem pure_result (a : α) (s : σ) : ((pure a : Run σ α) s).result = .ok a := rfl

theorem getState_apply (s : σ) : (getState : Run σ σ) s = ⟨[], s, .ok s⟩ := rfl

theorem liftM_eq_ofCalc (c : Calc α) : (liftM c : Run σ α) = ofCalc c := rfl

/-- A calculation gives the result that it has outside of a run. -/
theorem ofCalc_result_ok {c : Calc α} {s : σ} {a : α} :
    ((ofCalc c : Run σ α) s).result = .ok a ↔ c = .ok a := by
  rcases c with e | a'
  · show (Except.error (Fault.arithmetic e) : Except Fault α) = .ok a ↔ _
    simp
  · show (Except.ok a' : Except Fault α) = .ok a ↔ _
    simp

theorem ofCalc_result_error {c : Calc α} {s : σ} {fault : Fault} :
    ((ofCalc c : Run σ α) s).result = .error fault ↔
      ∃ e, c = .error e ∧ fault = .arithmetic e := by
  rcases c with e | a'
  · show (Except.error (Fault.arithmetic e) : Except Fault α) = .error fault ↔ _
    simp [eq_comm]
  · show (Except.ok a' : Except Fault α) = .error fault ↔ _
    simp

/-- What every step keeps, a pass keeps as a whole. -/
theorem foldlM_invariant {I : α → Prop} {f : α → β → Run σ α} {xs : List β}
    (step : ∀ a, ∀ x ∈ xs, ∀ s b, I a → (f a x s).result = .ok b → I b) {a b : α} {s : σ}
    (ha : I a) (h : (xs.foldlM f a s).result = .ok b) : I b := by
  induction xs generalizing a s with
  | nil =>
      obtain rfl : a = b := by simpa using h
      exact ha
  | cons x xs ih =>
      rw [List.foldlM_cons, bind_result_ok] at h
      obtain ⟨next, hx, h⟩ := h
      exact ih (fun a y hy => step a y (by simp [hy])) (step a x (by simp) s next ha hx) h

/-! ### Runs whose result does not depend on the state -/

/-- The run ends alike from every state. -/
def Steady (m : Run σ α) : Prop :=
  ∀ s s', (m s).result = (m s').result

namespace Steady

theorem pure (a : α) : Steady (pure a : Run σ α) := fun _ _ => rfl

theorem fail (fault : Fault) : Steady (Run.fail fault : Run σ α) := fun _ _ => rfl

theorem notify (notice : Notice) : Steady (Run.notify notice : Run σ Unit) := fun _ _ => rfl

theorem ofCalc (c : Calc α) : Steady (Run.ofCalc c : Run σ α) := fun _ _ => rfl

theorem bind {m : Run σ α} {f : α → Run σ β} (hm : Steady m) (hf : ∀ a, Steady (f a)) :
    Steady (m >>= f) := by
  intro s s'
  rcases h : ((m >>= f) s').result with fault | b
  · rw [bind_result_error] at h ⊢
    rcases h with h | ⟨a, ha, h⟩
    · exact .inl ((hm s s').trans h)
    · exact .inr ⟨a, (hm s s').trans ha, (hf a _ _).trans h⟩
  · rw [bind_result_ok] at h ⊢
    obtain ⟨a, ha, h⟩ := h
    exact ⟨a, (hm s s').trans ha, (hf a _ _).trans h⟩

theorem foldlM {xs : List β} {f : α → β → Run σ α} (hf : ∀ a x, Steady (f a x)) (a : α) :
    Steady (xs.foldlM f a) := by
  induction xs generalizing a with
  | nil => exact pure a
  | cons x xs ih =>
      rw [List.foldlM_cons]
      exact bind (hf a x) fun b => ih b

end Steady

/-! ### Runs that leave the state alone -/

/-- The run ends in the state that it starts from. -/
def Still (m : Run σ α) : Prop :=
  ∀ s, (m s).state = s

/-- A second step that leaves the state alone. -/
theorem bind_state_of_still {m : Run σ α} {f : α → Run σ β} (hf : ∀ a, Still (f a)) (s : σ) :
    ((m >>= f) s).state = (m s).state := by
  rcases h : m s with ⟨events, s', fault | a⟩
  · rw [bind_apply_error h]
  · rw [bind_apply_ok h]
    exact hf a s'

namespace Still

theorem pure (a : α) : Still (pure a : Run σ α) := fun _ => rfl

theorem fail (fault : Fault) : Still (Run.fail fault : Run σ α) := fun _ => rfl

theorem ofCalc (c : Calc α) : Still (Run.ofCalc c : Run σ α) := fun _ => rfl

theorem bind {m : Run σ α} {f : α → Run σ β} (hm : Still m) (hf : ∀ a, Still (f a)) :
    Still (m >>= f) := fun s => (bind_state_of_still hf s).trans (hm s)

end Still

/-! ### Runs that give no notice -/

/-- Whatever the run does, it leaves no notice in the trace. -/
def Quiet (m : Run σ α) : Prop :=
  ∀ s, (m s).notices = []

namespace Quiet

theorem pure (a : α) : Quiet (pure a : Run σ α) := fun _ => rfl

theorem fail (fault : Fault) : Quiet (Run.fail fault : Run σ α) := fun _ => rfl

theorem ofCalc (c : Calc α) : Quiet (Run.ofCalc c : Run σ α) := fun _ => rfl

theorem bind {m : Run σ α} {f : α → Run σ β} (hm : Quiet m) (hf : ∀ a, Quiet (f a)) :
    Quiet (m >>= f) := by
  intro s
  have hm := hm s
  rcases h : m s with ⟨events, s', fault | a⟩
  · rw [bind_apply_error h]
    rwa [h] at hm
  · have hf : (f a s').events.filterMap Event.notice? = [] := hf a s'
    have hevents : events.filterMap Event.notice? = [] := by rwa [h] at hm
    rw [bind_apply_ok h, Trace.notices, List.filterMap_append, hevents, hf, List.append_nil]

theorem foldlM {xs : List β} {f : α → β → Run σ α} (hf : ∀ a x, Quiet (f a x)) (a : α) :
    Quiet (xs.foldlM f a) := by
  induction xs generalizing a with
  | nil => exact pure a
  | cons x xs ih =>
      rw [List.foldlM_cons]
      exact bind (hf a x) fun b => ih b

/-- No event of a quiet calculation is a notice. -/
theorem notice?_eq_none {m : Run σ α} (h : Quiet m) (s : σ) :
    ∀ event ∈ (m s).events, event.notice? = none :=
  List.filterMap_eq_nil_iff.mp (h s)

end Quiet

/-! ### Faults -/

/-- Every fault that the run may stop with satisfies `P`. -/
def FailsWith (P : Fault → Prop) (m : Run σ α) : Prop :=
  ∀ s fault, (m s).result = .error fault → P fault

namespace FailsWith

variable {P : Fault → Prop}

theorem pure (a : α) : FailsWith P (pure a : Run σ α) := by
  intro s fault h
  cases h

theorem notify (notice : Notice) : FailsWith P (Run.notify notice : Run σ Unit) := by
  intro s fault h
  cases h

theorem ofCalc (hP : ∀ e, P (.arithmetic e)) (c : Calc α) :
    FailsWith P (Run.ofCalc c : Run σ α) := by
  intro s fault h
  obtain ⟨e, -, rfl⟩ := ofCalc_result_error.mp h
  exact hP e

/-- A sequence fails as one of its two steps does; the second one may rely on
what the first one results in. -/
theorem bind {m : Run σ α} {f : α → Run σ β} (hm : FailsWith P m)
    (hf : ∀ a, (∃ s, (m s).result = .ok a) → FailsWith P (f a)) : FailsWith P (m >>= f) := by
  intro s fault h
  rcases bind_result_error.mp h with h | ⟨a, ha, h⟩
  · exact hm s fault h
  · exact hf a ⟨s, ha⟩ _ fault h

theorem forM {xs : List β} {f : β → Run σ Unit} (hf : ∀ x ∈ xs, FailsWith P (f x)) :
    FailsWith P (xs.forM f) := by
  induction xs with
  | nil => exact pure ()
  | cons x xs ih =>
      rw [List.forM_eq_forM, List.forM_cons]
      exact bind (hf x (by simp)) fun _ _ => ih fun y hy => hf y (by simp [hy])

theorem foldlM {xs : List β} {f : α → β → Run σ α} (hf : ∀ a, ∀ x ∈ xs, FailsWith P (f a x))
    (a : α) : FailsWith P (xs.foldlM f a) := by
  induction xs generalizing a with
  | nil => exact pure a
  | cons x xs ih =>
      rw [List.foldlM_cons]
      exact bind (hf a x (by simp)) fun b _ => ih (fun c y hy => hf c y (by simp [hy])) b

end FailsWith

/-! ### Measurements -/

/-- From every state the run asks for the measurements `asked`, in this order,
and ends with `result`. -/
structure Yields (m : Run σ α) (asked : List (String × Quantity)) (result : Except Fault α) :
    Prop where
  measurements : ∀ s, (m s).measurements = asked
  result : ∀ s, (m s).result = result

namespace Yields

theorem pure (a : α) : Yields (pure a : Run σ α) [] (.ok a) :=
  ⟨fun _ => rfl, fun _ => rfl⟩

theorem notify (notice : Notice) : Yields (Run.notify notice : Run σ Unit) [] (.ok ()) :=
  ⟨fun _ => rfl, fun _ => rfl⟩

theorem ofCalc {c : Calc α} {a : α} (h : c = .ok a) : Yields (Run.ofCalc c : Run σ α) [] (.ok a) :=
  ⟨fun _ => rfl, fun _ => ofCalc_result_ok.mpr h⟩

/-- What one calculation asks for comes before what the next one asks for. -/
theorem bind {m : Run σ α} {f : α → Run σ β} {asked asked' : List (String × Quantity)} {a : α}
    {result : Except Fault β} (hm : Yields m asked (.ok a)) (hf : Yields (f a) asked' result) :
    Yields (m >>= f) (asked ++ asked') result := by
  constructor <;> intro s
  -- the second calculation starts from the state that the first one leaves
  · rcases h : m s with ⟨events, s', r⟩
    have hr : r = .ok a := by simpa [h] using hm.result s
    subst hr
    have h₁ : events.filterMap Event.measurement? = asked := by
      simpa [h, Trace.measurements] using hm.measurements s
    have h₂ : (f a s').events.filterMap Event.measurement? = asked' := hf.measurements s'
    rw [bind_apply_ok h]
    simp only [Trace.measurements, List.filterMap_append, h₁, h₂]
  · rcases h : m s with ⟨events, s', r⟩
    have hr : r = .ok a := by simpa [h] using hm.result s
    subst hr
    rw [bind_apply_ok h]
    exact hf.result s'

/-- A second step that asks for nothing. -/
theorem bind_quiet {m : Run σ α} {f : α → Run σ β} {asked : List (String × Quantity)} {a : α}
    {result : Except Fault β} (hm : Yields m asked (.ok a)) (hf : Yields (f a) [] result) :
    Yields (m >>= f) asked result := by
  rw [← List.append_nil asked]
  exact hm.bind hf

/-- After a fault nothing more is asked. -/
theorem bind_error {m : Run σ α} {asked : List (String × Quantity)} {fault : Fault}
    (hm : Yields m asked (.error fault)) (f : α → Run σ β) :
    Yields (m >>= f) asked (.error fault) := by
  constructor <;> intro s
  · rcases h : m s with ⟨events, s', r⟩
    have hr : r = .error fault := by simpa [h] using hm.result s
    subst hr
    rw [bind_apply_error h]
    simpa [h, Trace.measurements] using hm.measurements s
  · rcases h : m s with ⟨events, s', r⟩
    have hr : r = .error fault := by simpa [h] using hm.result s
    subst hr
    rw [bind_apply_error h]

theorem forM {xs : List β} {f : β → Run σ Unit} (hf : ∀ x ∈ xs, Yields (f x) [] (.ok ())) :
    Yields (xs.forM f) [] (.ok ()) := by
  induction xs with
  | nil => exact pure ()
  | cons x xs ih =>
      rw [List.forM_eq_forM, List.forM_cons]
      exact (hf x (by simp)).bind (ih fun y hy => hf y (by simp [hy]))

/-- What has a result for every state never fails. -/
theorem failsWith {m : Run σ α} {asked : List (String × Quantity)} {a : α}
    (h : Yields m asked (.ok a)) (P : Fault → Prop) : FailsWith P m := by
  intro s fault hfault
  rw [h.result s] at hfault
  cases hfault

end Yields

end Run

end SequenceChart
