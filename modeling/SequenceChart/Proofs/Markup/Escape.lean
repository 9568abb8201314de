/-
SequenceChart/Proofs/Markup/Escape.lean

Escaped text is free of markup and loses nothing.

The five passes of escaping are one substitution (`escapeChars_eq_substitute`),
so what is said of a single character holds of a text: no `<` and no `>` is
left (`plain_escapeChars`), and undoing the entities gives the text back
(`unescapeChars_escapeChars`).  What can be said of escaping as a whole, also
that every ampersand in an escaped text begins an entity, is put together in
`Faithful`.
-/
import Mathlib.Logic.Function.Basic
import SequenceChart.Markup.Escape

namespace SequenceChart.Markup

/-! ### One substitution -/

theorem replaceChar_append (c : Char) (entity : String) (s t : List Char) :
    replaceChar c entity (s ++ t) = replaceChar c entity s ++ replaceChar c entity t :=
  List.flatMap_append

theorem replaceChar_singleton_of_ne {c x : Char} {entity : String} (h : x ≠ c) :
    replaceChar c entity [x] = [x] := by
  simp [replaceChar, h]

/-- Every pass goes from character to character. -/
theorem escapeChars_append (s t : List Char) :
    escapeChars (s ++ t) = escapeChars s ++ escapeChars t := by
  simp only [escapeChars, entities, List.foldl_cons, List.foldl_nil, replaceChar_append]

/-- A character is one of the five or stands for itself. -/
theorem entityOf_cases (c : Char) :
    (c = '&' ∧ entityOf c = ['&', 'a', 'm', 'p', ';']) ∨
    (c = '<' ∧ entityOf c = ['&', 'l', 't', ';']) ∨
    (c = '>' ∧ entityOf c = ['&', 'g', 't', ';']) ∨
    (c = '"' ∧ entityOf c = ['&', 'q', 'u', 'o', 't', ';']) ∨
    (c = '\'' ∧ entityOf c = ['&', '#', '3', '9', ';']) ∨
    (c ∉ ['&', '<', '>', '"', '\''] ∧ entityOf c = [c]) := by
  by_cases hamp : c = '&'
  · exact .inl ⟨hamp, by subst hamp; decide⟩
  by_cases hlt : c = '<'
  · exact .inr <| .inl ⟨hlt, by subst hlt; decide⟩
  by_cases hgt : c = '>'
  · exact .inr <| .inr <| .inl ⟨hgt, by subst hgt; decide⟩
  by_cases hquot : c = '"'
  · exact .inr <| .inr <| .inr <| .inl ⟨hquot, by subst hquot; decide⟩
  by_cases hapos : c = '\''
  · exact .inr <| .inr <| .inr <| .inr <| .inl ⟨hapos, by subst hapos; decide⟩
  -- of all other characters there is no entity
  have hlookup : entities.lookup c = none := by
    simp [entities, List.lookup_cons, beq_eq_false_iff_ne.mpr hamp, beq_eq_false_iff_ne.mpr hlt,
      beq_eq_false_iff_ne.mpr hgt, beq_eq_false_iff_ne.mpr hquot, beq_eq_false_iff_ne.mpr hapos]
  refine .inr <| .inr <| .inr <| .inr <| .inr ⟨by simp [hamp, hlt, hgt, hquot, hapos], ?_⟩
  rw [entityOf, hlookup]

/-- What the passes make of one character is its entity. -/
theorem escapeChars_singleton (c : Char) : escapeChars [c] = entityOf c := by
  rcases entityOf_cases c with ⟨rfl, h⟩ | ⟨rfl, h⟩ | ⟨rfl, h⟩ | ⟨rfl, h⟩ | ⟨rfl, h⟩ | ⟨hc, h⟩
  · decide
  · decide
  · decide
  · decide
  · decide
  -- none of the five passes touches the character
  · simp only [List.mem_cons, List.not_mem_nil, or_false, not_or] at hc
    obtain ⟨hamp, hlt, hgt, hquot, hapos⟩ := hc
    simp only [escapeChars, entities, List.foldl_cons, List.foldl_nil]
    rw [replaceChar_singleton_of_ne hamp, replaceChar_singleton_of_ne hlt,
      replaceChar_singleton_of_ne hgt, replaceChar_singleton_of_ne hquot,
      replaceChar_singleton_of_ne hapos, h]

/-- The passes are one substitution. -/
theorem escapeChars_eq_substitute (s : List Char) : escapeChars s = substitute s := by
  induction s with
  | nil => rfl
  | cons c s ih =>
      show escapeChars ([c] ++ s) = entityOf c ++ substitute s
      rw [escapeChars_append, escapeChars_singleton, ih]

theorem escapeChars_cons (c : Char) (s : List Char) :
    escapeChars (c :: s) = entityOf c ++ escapeChars s := by
  rw [escapeChars_eq_substitute, escapeChars_eq_substitute]
  rfl

/-! ### No markup is left -/

/-- Whether a text has no character that starts or ends a tag. -/
def Plain (s : List Char) : Prop :=
  ∀ c ∈ s, c ≠ '<' ∧ c ≠ '>'

instance (s : List Char) : Decidable (Plain s) :=
  List.decidableBAll (fun c => c ≠ '<' ∧ c ≠ '>') s

@[simp] theorem plain_nil : Plain [] := by
  simp [Plain]

@[simp] theorem plain_cons {c : Char} {s : List Char} :
    Plain (c :: s) ↔ (c ≠ '<' ∧ c ≠ '>') ∧ Plain s := by
  simp [Plain]

@[simp] theorem plain_append {s t : List Char} : Plain (s ++ t) ↔ Plain s ∧ Plain t := by
  simp only [Plain, List.mem_append]
  constructor
  · intro h
    exact ⟨fun c hc => h c (.inl hc), fun c hc => h c (.inr hc)⟩
  · rintro ⟨hs, ht⟩ c (hc | hc)
    · exact hs c hc
    · exact ht c hc

theorem Plain.not_mem_lt {s : List Char} (h : Plain s) : '<' ∉ s :=
  fun hmem => (h '<' hmem).1 rfl

theorem Plain.not_mem_gt {s : List Char} (h : Plain s) : '>' ∉ s :=
  fun hmem => (h '>' hmem).2 rfl

theorem plain_entityOf (c : Char) : Plain (entityOf c) := by
  rcases entityOf_cases c with ⟨rfl, h⟩ | ⟨rfl, h⟩ | ⟨rfl, h⟩ | ⟨rfl, h⟩ | ⟨rfl, h⟩ | ⟨hc, h⟩
  · decide
  · decide
  · decide
  · decide
  · decide
  · simp only [List.mem_cons, not_or] at hc
    rw [h]
    simp [hc]

/-- **Escaped text has no tag in it.** -/
theorem plain_escapeChars (s : List Char) : Plain (escapeChars s) := by
  induction s with
  | nil => exact plain_nil
  | cons c s ih =>
      rw [escapeChars_cons, plain_append]
      exact ⟨plain_entityOf c, ih⟩

/-! ### Nothing is lost -/

/-- Undo the five entities; everything else stays. -/
def unescapeChars : List Char → List Char
  | '&' :: 'a' :: 'm' :: 'p' :: ';' :: s => '&' :: unescapeChars s
  | '&' :: 'l' :: 't' :: ';' :: s => '<' :: unescapeChars s
  | '&' :: 'g' :: 't' :: ';' :: s => '>' :: unescapeChars s
  | '&' :: 'q' :: 'u' :: 'o' :: 't' :: ';' :: s => '"' :: unescapeChars s
  | '&' :: '#' :: '3' :: '9' :: ';' :: s => '\'' :: unescapeChars s
  | c :: s => c :: unescapeChars s
  | [] => []

/-- An entity is read as its character. -/
theorem unescapeChars_entityOf_append (c : Char) (s : List Char) :
    unescapeChars (entityOf c ++ s) = c :: unescapeChars s := by
  rcases entityOf_cases c with ⟨rfl, h⟩ | ⟨rfl, h⟩ | ⟨rfl, h⟩ | ⟨rfl, h⟩ | ⟨rfl, h⟩ | ⟨hc, h⟩
  · rw [h]
    rfl
  · rw [h]
    rfl
  · rw [h]
    rfl
  · rw [h]
    rfl
  · rw [h]
    rfl
  · have hamp : c ≠ '&' := by
      rintro rfl
      simp at hc
    -- only an ampersand can start an entity
    rw [h, List.singleton_append, unescapeChars]
    all_goals
      intro rest heq
      exact absurd heq hamp

/-- **Undoing the entities gives the text back.** -/
theorem unescapeChars_escapeChars (s : List Char) : unescapeChars (escapeChars s) = s := by
  induction s with
  | nil => rfl
  | cons c s ih => rw [escapeChars_cons, unescapeChars_entityOf_append, ih]

/-! ### Escaping as a whole -/

theorem entityOf_of_not_mem {c : Char} (h : c ∉ ['&', '<', '>', '"', '\'']) :
    entityOf c = [c] := by
  simp only [List.mem_cons, List.not_mem_nil, or_false, not_or] at h
  simpa [h] using entityOf_cases c

theorem not_mem_entityOf {c x : Char} (h : c ∈ ['<', '>', '"', '\'']) : c ∉ entityOf x := by
  by_cases hx : x ∈ ['&', '<', '>', '"', '\'']
  · -- no entity has one of the four in it
    simp only [List.mem_cons, List.not_mem_nil, or_false] at h hx
    rcases hx with rfl | rfl | rfl | rfl | rfl <;> rcases h with rfl | rfl | rfl | rfl <;> decide
  · rw [entityOf_of_not_mem hx, List.mem_singleton]
    rintro rfl
    exact hx (List.mem_cons_of_mem _ h)

/-- Of the five characters only the ampersand is left in an escaped text. -/
theorem not_mem_escapeChars {c : Char} (h : c ∈ ['<', '>', '"', '\'']) (s : List Char) :
    c ∉ escapeChars s := by
  rw [escapeChars_eq_substitute, substitute, List.mem_flatMap]
  rintro ⟨x, -, hx⟩
  exact not_mem_entityOf h hx

/-- An ampersand in a text that starts with the entity of a character is where
this entity starts, or behind it: no entity has a second one. -/
theorem suffix_entityOf_append {c : Char} {rest s : List Char}
    (h : '&' :: rest <:+ entityOf c ++ s) :
    (c ∈ ['&', '<', '>', '"', '\''] ∧ '&' :: rest = entityOf c ++ s) ∨ '&' :: rest <:+ s := by
  rcases entityOf_cases c with ⟨rfl, hc⟩ | ⟨rfl, hc⟩ | ⟨rfl, hc⟩ | ⟨rfl, hc⟩ | ⟨rfl, hc⟩ | ⟨hmem, hc⟩
  · simpa [hc, List.suffix_cons_iff] using h
  · simpa [hc, List.suffix_cons_iff] using h
  · simpa [hc, List.suffix_cons_iff] using h
  · simpa [hc, List.suffix_cons_iff] using h
  · simpa [hc, List.suffix_cons_iff] using h
  · rw [hc, List.singleton_append, List.suffix_cons_iff] at h
    rcases h with heq | h
    · -- a character that stands for itself is no ampersand
      obtain ⟨rfl, -⟩ := List.cons.inj heq
      exact absurd List.mem_cons_self hmem
    · exact .inr h

/-- Every ampersand of an escaped text begins an entity. -/
theorem exists_entity_of_suffix {s rest : List Char} (h : '&' :: rest <:+ escapeChars s) :
    ∃ entity ∈ ["&amp;", "&lt;", "&gt;", "&quot;", "&#39;"], entity.toList <+: '&' :: rest := by
  induction s with
  | nil => exact absurd (List.suffix_nil.mp h) (List.cons_ne_nil _ _)
  | cons c s ih =>
      rw [escapeChars_cons] at h
      -- either the ampersand is the one that this character became, or it comes later
      rcases suffix_entityOf_append h with ⟨hc, heq⟩ | h
      · have hentity : String.ofList (entityOf c) ∈ ["&amp;", "&lt;", "&gt;", "&quot;", "&#39;"] := by
          simp only [List.mem_cons, List.not_mem_nil, or_false] at hc
          rcases hc with rfl | rfl | rfl | rfl | rfl <;> decide
        refine ⟨_, hentity, ?_⟩
        rw [String.toList_ofList, heq]
        exact List.prefix_append _ _
      · exact ih h

/-- Different texts are escaped differently. -/
theorem injective_escape : Function.Injective escape := by
  intro s t h
  have hchars : escapeChars s.toList = escapeChars t.toList := String.ofList_injective h
  apply String.toList_injective
  rw [← unescapeChars_escapeChars s.toList, hchars, unescapeChars_escapeChars]

/-- Texts are written character by character, five characters as entities and
all others as they are, and can be read back. -/
structure Faithful (write : String → String) : Prop where
  /-- What a character is written as does not depend on what stands around it. -/
  substitutes : ∀ s, (write s).toList = s.toList.flatMap entityOf
  specials : ['&', '<', '>', '"', '\''].map entityOf =
    ["&amp;".toList, "&lt;".toList, "&gt;".toList, "&quot;".toList, "&#39;".toList]
  others : ∀ c, c ∉ ['&', '<', '>', '"', '\''] → entityOf c = [c]
  bare : ∀ s, ∀ c ∈ ['<', '>', '"', '\''], c ∉ (write s).toList
  ampersand : ∀ s rest, '&' :: rest <:+ (write s).toList →
    ∃ entity ∈ ["&amp;", "&lt;", "&gt;", "&quot;", "&#39;"], entity.toList <+: '&' :: rest
  restores : ∀ s, unescapeChars (write s).toList = s.toList
  injective : Function.Injective write
  append : ∀ s t, write (s ++ t) = write s ++ write t

/-- **The five passes are one substitution that loses nothing.**  None of them
touches what an earlier one inserted, so a text is written character by
character, and reading its entities from left to right gives it back, also
where it looks like an entity itself. -/
theorem faithful_escape : Faithful escape where
  substitutes := by
    intro s
    rw [escape, String.toList_ofList, escapeChars_eq_substitute, substitute]
  specials := by decide
  others := fun _ => entityOf_of_not_mem
  bare := by
    intro s c hc
    rw [escape, String.toList_ofList]
    exact not_mem_escapeChars hc _
  ampersand := by
    intro s rest h
    rw [escape, String.toList_ofList] at h
    exact exists_entity_of_suffix h
  restores := by
    intro s
    rw [escape, String.toList_ofList, unescapeChars_escapeChars]
  injective := injective_escape
  append := by
    intro s t
    rw [escape, String.toList_append, escapeChars_append, String.ofList_append, escape, escape]

/-- A text that looks like an entity is escaped like any other. -/
example : escape "&lt; <" = "&amp;lt; &lt;" := by
  decide

end SequenceChart.Markup
