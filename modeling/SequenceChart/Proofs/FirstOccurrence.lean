/-
SequenceChart/Proofs/FirstOccurrence.lean

First occurrences in a list.

The participants of a chart stand in the order in which they are first
mentioned.  `List.eraseDups` keeps the first occurrences of a list in order;
here is what a pass that reads the list from left to right needs to know
about it: how one more element changes it, how it goes along with a renaming,
and where in the list a kept occurrence stands.
-/
import Mathlib.Data.List.Induction
import Mathlib.Data.List.Nodup
import Mathlib.Data.Set.Function

namespace SequenceChart.FirstOccurrence

variable {α β : Type*} [BEq α] [LawfulBEq α] [BEq β] [LawfulBEq β]

/-! ### One more element -/

theorem eraseDups_concat_of_mem {l : List α} {x : α} (h : x ∈ l) :
    (l ++ [x]).eraseDups = l.eraseDups := by
  rw [List.eraseDups_append]
  simp [List.removeAll, h]

theorem eraseDups_concat_of_not_mem {l : List α} {x : α} (h : x ∉ l) :
    (l ++ [x]).eraseDups = l.eraseDups ++ [x] := by
  rw [List.eraseDups_append]
  simp [List.removeAll, h, List.eraseDups_cons]

theorem nodup_eraseDups (l : List α) : l.eraseDups.Nodup := by
  induction l using List.reverseRecOn with
  | nil => simp
  | append_singleton l x ih =>
      by_cases h : x ∈ l
      · rw [eraseDups_concat_of_mem h]
        exact ih
      · rw [eraseDups_concat_of_not_mem h, List.nodup_append]
        refine ⟨ih, List.nodup_singleton x, ?_⟩
        intro a ha b hb hab
        rw [List.mem_singleton.mp hb] at hab
        exact h (hab ▸ List.mem_eraseDups.mp ha)

/-! ### Renaming -/

/-- First occurrences are kept by a map that tells the elements apart. -/
theorem eraseDups_map {f : α → β} {l : List α} (hf : Set.InjOn f {x | x ∈ l}) :
    (l.map f).eraseDups = l.eraseDups.map f := by
  induction l using List.reverseRecOn with
  | nil => rfl
  | append_singleton l x ih =>
      have hl : Set.InjOn f {x | x ∈ l} := hf.mono fun y hy => List.mem_append_left [x] hy
      -- a map that tells the elements apart keeps what occurred before
      have hx : f x ∈ l.map f ↔ x ∈ l := by
        constructor
        · intro h
          obtain ⟨y, hy, hxy⟩ := List.mem_map.mp h
          have : y = x := hf (List.mem_append_left [x] hy) (by simp) hxy
          exact this ▸ hy
        · exact List.mem_map_of_mem
      rw [List.map_append, List.map_singleton]
      by_cases h : x ∈ l
      · rw [eraseDups_concat_of_mem (hx.mpr h), eraseDups_concat_of_mem h, ih hl]
      · rw [eraseDups_concat_of_not_mem (mt hx.mp h), eraseDups_concat_of_not_mem h, ih hl,
          List.map_append, List.map_singleton]

omit [BEq α] [LawfulBEq α] [BEq β] [LawfulBEq β] in
/-- Lists of elements that a map tells apart are the same if their images are. -/
theorem eq_of_map_eq {f : α → β} {l l' : List α} {s : Set α} (hf : Set.InjOn f s)
    (hl : ∀ x ∈ l, x ∈ s) (hl' : ∀ x ∈ l', x ∈ s) (h : l.map f = l'.map f) : l = l' := by
  induction l generalizing l' with
  | nil => exact (List.map_eq_nil_iff.mp h.symm).symm
  | cons x l ih =>
      rcases l' with - | ⟨x', l'⟩
      · simp at h
      · obtain ⟨hx, h⟩ := List.cons.inj h
        rw [hf (hl x (by simp)) (hl' x' (by simp)) hx,
          ih (fun y hy => hl y (by simp [hy])) (fun y hy => hl' y (by simp [hy])) h]

/-! ### Where a kept occurrence stands -/

/-- Before the first occurrence of `x` stand exactly the elements that are
kept before it. -/
theorem exists_split_of_eraseDups {l before after : List α} {x : α}
    (h : l.eraseDups = before ++ x :: after) :
    ∃ front back, l = front ++ x :: back ∧ front.eraseDups = before := by
  induction l using List.reverseRecOn generalizing after with
  | nil => simp at h
  | append_singleton l y ih =>
      -- an element that came before adds nothing to the kept ones
      by_cases hy : y ∈ l
      · rw [eraseDups_concat_of_mem hy] at h
        obtain ⟨front, back, rfl, hfront⟩ := ih h
        exact ⟨front, back ++ [y], by simp, hfront⟩
      · rw [eraseDups_concat_of_not_mem hy] at h
        rcases List.eq_nil_or_concat after with rfl | ⟨after', z, rfl⟩
        · -- `x` is the element that was added last
          obtain ⟨hbefore, hxy⟩ := List.append_inj' h rfl
          obtain rfl : y = x := by simpa using hxy
          exact ⟨l, [], rfl, hbefore⟩
        · have h' : l.eraseDups ++ [y] = (before ++ x :: after') ++ [z] := by
            rw [h]
            simp
          obtain ⟨front, back, rfl, hfront⟩ := ih (List.append_inj' h' rfl).1
          exact ⟨front, back ++ [y], by simp, hfront⟩

end SequenceChart.FirstOccurrence
