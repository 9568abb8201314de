/-
SequenceChart/Proofs/Cli/FileTree.lean

Writing a file changes nothing else.

What is at a place depends on what is listed there and, for directories that
are there for what is in them, on what is listed below.  A new entry is below
all directories on the way to it, so one has to know that these were there
before.  They are, since a path is only followed through places that are
reached, and what is reached is reached through all places above it
(`rooted_of_follow`).  So a file that is written is at its place
(`node?_put_self`), every other place keeps what it has (`node?_put_of_ne`), and
the path leads to the file again (`Wrote.read`).
-/
import Mathlib.Data.List.Infix
import SequenceChart.Cli.FileTree
import SequenceChart.Proofs.Run

namespace SequenceChart.Cli.FileTree

variable {t t' : FileTree} {place other target : Place} {content : ByteArray}

/-! ### Places that are reached -/

/-- The places that something is listed at. -/
def places (t : FileTree) : List Place :=
  t.nodes.map Prod.fst

/-- What is reached is on the way to the working directory or to what is listed. -/
theorem reaches_iff : t.reaches place ↔ place <+: t.here ∨ ∃ p ∈ t.places, place <+: p := by
  simp [reaches, places, List.any_eq_true]

/-- What is above a place that is reached is reached too. -/
theorem reaches_above (h : t.reaches place) (hother : other <+: place) : t.reaches other := by
  rw [reaches_iff] at h ⊢
  rcases h with h | ⟨p, hp, h⟩
  · exact .inl (hother.trans h)
  · exact .inr ⟨p, hp, hother.trans h⟩

theorem reaches_of_node?_eq_some {node : Node} (h : t.node? place = some node) :
    t.reaches place := by
  unfold node? at h
  split at h
  · next entry hentry =>
      have hplace : entry.1 = place := by simpa using List.find?_some hentry
      have hlisted : entry.1 ∈ t.places := List.mem_map_of_mem (List.mem_of_find?_eq_some hentry)
      exact reaches_iff.mpr (.inr ⟨entry.1, hlisted, hplace ▸ List.prefix_rfl⟩)
  · split at h
    · next hreaches => exact hreaches
    · cases h

/-- Whether all places above a place are reached. -/
def Rooted (t : FileTree) (place : Place) : Prop :=
  ∀ other, other <+: place → other ≠ place → t.reaches other

theorem rooted_of_reaches (h : t.reaches place) : t.Rooted place :=
  fun _ hother _ => reaches_above h hother

theorem rooted_append_singleton (h : t.reaches place) (name : String) :
    t.Rooted (place ++ [name]) := by
  intro other hother hne
  rcases List.prefix_concat_iff.mp hother with heq | hother
  · exact absurd heq hne
  · exact reaches_above h hother

/-- A path leads on from places that are reached, so all places above its end
are reached. -/
theorem rooted_of_follow {names : List String} (hstart : t.Rooted place)
    (h : t.follow place names = .ok target) : t.Rooted target := by
  induction names generalizing place with
  | nil =>
      obtain rfl : place = target := Except.ok.inj h
      exact hstart
  | cons name rest ih =>
      rw [follow] at h
      split at h
      · cases h
      · next hnode =>
          have hreaches : t.reaches place := reaches_of_node?_eq_some hnode
          -- the name is a dot, two dots, or one level further down
          split_ifs at h
          · exact ih hstart h
          · exact ih (rooted_of_reaches (reaches_above hreaches place.dropLast_prefix)) h
          · exact ih (rooted_append_singleton hreaches name) h
      · cases h

/-- A path leads to a place that all directories are there for. -/
theorem rooted_of_resolve {path : Path} (h : t.resolve path = .ok place) : t.Rooted place := by
  have hhere : t.Rooted t.here := rooted_of_reaches (reaches_iff.mpr (.inl List.prefix_rfl))
  have hroot : t.Rooted [] := fun other hother hne => absurd (List.prefix_nil.mp hother) hne
  rw [resolve] at h
  split_ifs at h
  · exact rooted_of_follow hhere h
  · exact rooted_of_follow hroot h

/-- A path leads to the same place in a tree that has the same directories. -/
theorem follow_of_directories_kept {names : List String}
    (hkept : ∀ p, t.node? p = some .directory → t'.node? p = some .directory)
    (h : t.follow place names = .ok target) : t'.follow place names = .ok target := by
  induction names generalizing place with
  | nil => exact h
  | cons name rest ih =>
      rw [follow] at h ⊢
      split at h
      · cases h
      · next hnode =>
          -- the place is a directory in both trees, so the next step is the same
          rw [hkept _ hnode]
          split_ifs at h ⊢
          · exact ih h
          · exact ih h
          · exact ih h
      · cases h

/-! ### Putting a file in its place -/

theorem put_here : (t.put place content).here = t.here := by
  unfold put
  split <;> rfl

/-- An entry after a file was put at a place: its own place is the same. -/
def replaced (place : Place) (content : ByteArray) (entry : Place × Node) : Place × Node :=
  if entry.1 = place then (place, .file content) else entry

theorem fst_replaced (entry : Place × Node) : (replaced place content entry).1 = entry.1 := by
  unfold replaced
  split_ifs with h
  · exact h.symm
  · rfl

theorem replaced_of_ne {entry : Place × Node} (h : entry.1 ≠ place) :
    replaced place content entry = entry :=
  if_neg h

/-- A place that is listed has its entries replaced; another one gets an entry
at the end. -/
theorem nodes_put : (t.put place content).nodes =
    if place ∈ t.places then t.nodes.map (replaced place content)
    else t.nodes ++ [(place, .file content)] := by
  have hlisted : (t.nodes.any fun entry => entry.1 = place) = true ↔ place ∈ t.places := by
    simp [places, List.any_eq_true]
  rw [put]
  simp only [hlisted]
  split
  · rfl
  · rfl

/-- One place is listed that perhaps was not. -/
theorem mem_places_put {p : Place} :
    p ∈ (t.put place content).places ↔ p ∈ t.places ∨ p = place := by
  rw [places, nodes_put]
  split_ifs with hlisted
  · have hplaces : (t.nodes.map (replaced place content)).map Prod.fst = t.places := by
      rw [List.map_map]
      exact List.map_congr_left fun entry _ => fst_replaced entry
    rw [hplaces]
    exact (or_iff_left_of_imp fun h => h ▸ hlisted).symm
  · simp [places]

/-- Only the places above the file are reached anew. -/
theorem reaches_put : (t.put place content).reaches other ↔ t.reaches other ∨ other <+: place := by
  simp only [reaches_iff, put_here, mem_places_put, or_and_right, exists_or, exists_eq_left,
    or_assoc]

theorem find?_map_replaced (nodes : List (Place × Node)) :
    (nodes.map (replaced place content)).find? (fun entry => entry.1 = other) =
      (nodes.find? fun entry => entry.1 = other).map (replaced place content) := by
  rw [List.find?_map]
  simp only [Function.comp_def, fst_replaced]

/-- What was put at a place is found there. -/
theorem find?_put_self :
    (t.put place content).nodes.find? (fun entry => entry.1 = place) =
      some (place, .file content) := by
  rw [nodes_put]
  split_ifs with hlisted
  -- an entry that is listed is replaced, and the first one is found
  · obtain ⟨entry, hentry, hplace⟩ := List.mem_map.mp hlisted
    rcases hfind : t.nodes.find? (fun entry => entry.1 = place) with - | found
    · exact absurd (decide_eq_true hplace) (List.find?_eq_none.mp hfind entry hentry)
    · have hfound : found.1 = place := by simpa using List.find?_some hfind
      rw [find?_map_replaced, hfind, Option.map_some, replaced, if_pos hfound]
  · have hnone : t.nodes.find? (fun entry => entry.1 = place) = none := by
      rw [List.find?_eq_none]
      intro entry hentry hplace
      exact hlisted (List.mem_map.mpr ⟨entry, hentry, of_decide_eq_true hplace⟩)
    simp [List.find?_append, hnone]

theorem find?_put_of_ne (h : other ≠ place) :
    (t.put place content).nodes.find? (fun entry => entry.1 = other) =
      t.nodes.find? fun entry => entry.1 = other := by
  rw [nodes_put]
  split_ifs
  · rcases hfind : t.nodes.find? (fun entry => entry.1 = other) with - | found
    · rw [find?_map_replaced, hfind, Option.map_none]
    · have hfound : found.1 = other := by simpa using List.find?_some hfind
      rw [find?_map_replaced, hfind, Option.map_some, replaced_of_ne (hfound ▸ h)]
  · simp [List.find?_append, Ne.symm h]

theorem node?_put_self : (t.put place content).node? place = some (.file content) := by
  rw [node?, find?_put_self]

/-- What is at another place stays, if that place is no new directory. -/
theorem node?_put_of_ne (hrooted : t.Rooted place) (h : other ≠ place) :
    (t.put place content).node? other = t.node? other := by
  have hreaches : (t.put place content).reaches other = t.reaches other := by
    rw [Bool.eq_iff_iff, reaches_put]
    exact or_iff_left_of_imp fun hother => hrooted other hother h
  rw [node?, find?_put_of_ne h, hreaches, node?]

/-! ### Writing -/

/-- What it does to a tree to fill a file at a place. -/
structure Wrote (t t' : FileTree) (place : Place) (content : ByteArray) : Prop where
  here : t'.here = t.here
  /-- The file is at its place, unless there is a device. -/
  written : t'.node? place = some (.file content) ∨ t.node? place = some .device ∧ t' = t
  others : ∀ other, other ≠ place → t'.node? other = t.node? other

variable {path : Path}

/-- Only a directory cannot be opened for writing, where a path leads anywhere. -/
theorem target_eq_ok (h : t.target path = .ok place) :
    t.resolve path = .ok place ∧ t.node? place ≠ some .directory := by
  obtain ⟨place', hplace, h⟩ := bind_eq_ok.mp h
  split at h
  · cases h
  · next hdirectory =>
      obtain rfl := Except.ok.inj h
      exact ⟨hplace, hdirectory⟩

/-- Whatever a file is filled with, nothing else changes. -/
theorem wrote_fill (h : t.target path = .ok place) (content : ByteArray) :
    Wrote t (t.fill place content) place content := by
  obtain ⟨hplace, -⟩ := target_eq_ok h
  have hput : Wrote t (t.put place content) place content :=
    { here := put_here
      written := .inl node?_put_self
      others := fun other => node?_put_of_ne (rooted_of_resolve hplace) }
  unfold fill
  split
  · next hdevice => exact ⟨rfl, .inr ⟨hdevice, rfl⟩, fun _ _ => rfl⟩
  · exact hput

/-- The path that was written to leads to the file again. -/
theorem Wrote.read (h : Wrote t t' place content) (hplace : t.resolve path = .ok place)
    (hdirectory : t.node? place ≠ some .directory) :
    t'.read path = .ok content ∨ t.node? place = some .device := by
  rcases h.written with hfile | ⟨hdevice, -⟩
  · -- no directory was lost, so the path leads to the same place
    have hkept : ∀ p, t.node? p = some .directory → t'.node? p = some .directory := by
      intro p hp
      have hne : p ≠ place := fun heq => hdirectory (heq ▸ hp)
      rw [h.others p hne, hp]
    have hplace' : t'.resolve path = .ok place := by
      rw [resolve, h.here]
      rw [resolve] at hplace
      split_ifs at hplace ⊢
      · exact follow_of_directories_kept hkept hplace
      · exact follow_of_directories_kept hkept hplace
    refine .inl (bind_eq_ok.mpr ⟨place, hplace', ?_⟩)
    rw [hfile]
    rfl
  · exact .inr hdevice

end SequenceChart.Cli.FileTree
