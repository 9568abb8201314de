/-
SequenceChart/Proofs/Markup/Tame.lean

Attributes that can be written as they stand.

A drawing does not escape its attributes.  It need not, as long as they are
tame: a document may hold their characters, none of these starts or ends a tag,
and no quote ends a value early (`TameAttribute`).  Numbers are tame, and so is
what a drawing puts together from them and from its own words.  A piece of a
drawing only has to say that its attributes are tame; that they are plain, legal
and legible follows.
-/
import SequenceChart.Proofs.Markup.Attribute
import SequenceChart.Proofs.Markup.Character

namespace SequenceChart

namespace Markup

/-! ### Texts -/

/-- Whether a character may stand in an attribute and does nothing there. -/
def isTameChar (c : Char) : Bool :=
  isDocumentChar c && c != '<' && c != '>' && c != '"'

/-- Whether a text can be the value of an attribute as it stands. -/
def Tame (s : List Char) : Prop :=
  ∀ c ∈ s, isTameChar c

instance (s : List Char) : Decidable (Tame s) :=
  List.decidableBAll (fun c => isTameChar c = true) s

@[simp] theorem tame_nil : Tame [] :=
  List.forall_mem_nil _

@[simp] theorem tame_cons {c : Char} {s : List Char} : Tame (c :: s) ↔ isTameChar c ∧ Tame s :=
  List.forall_mem_cons

@[simp] theorem tame_append {s t : List Char} : Tame (s ++ t) ↔ Tame s ∧ Tame t :=
  List.forall_mem_append

theorem isTameChar_iff {c : Char} :
    isTameChar c ↔ isDocumentChar c ∧ c ≠ '<' ∧ c ≠ '>' ∧ c ≠ '"' := by
  simp [isTameChar, and_assoc]

theorem Tame.legal {s : List Char} (h : Tame s) : Legal s :=
  fun c hc => (isTameChar_iff.mp (h c hc)).1

theorem Tame.plain {s : List Char} (h : Tame s) : Plain s := by
  intro c hc
  obtain ⟨-, hlt, hgt, -⟩ := isTameChar_iff.mp (h c hc)
  exact ⟨hlt, hgt⟩

theorem Tame.unquoted {s : List Char} (h : Tame s) : '"' ∉ s :=
  fun hmem => (isTameChar_iff.mp (h _ hmem)).2.2.2 rfl

theorem Tame.intercalate {sep : String} (hsep : Tame sep.toList) {pieces : List String}
    (h : ∀ piece ∈ pieces, Tame piece.toList) : Tame (String.intercalate sep pieces).toList := by
  intro c hc
  rcases mem_intercalate hc with hc | ⟨piece, hpiece, hc⟩
  · exact hsep c hc
  · exact h piece hpiece c hc

end Markup

open Markup

theorem Number.isTameChar_of_isNumberChar {c : Char} (h : isNumberChar c) : isTameChar c := by
  refine isTameChar_iff.mpr ⟨isDocumentChar_of_isNumberChar h, ?_, ?_, ?_⟩ <;>
    rintro rfl <;> exact absurd h (by decide)

theorem Quantity.tame_text (q : Quantity) : Tame q.text.toList :=
  fun c hc => Number.isTameChar_of_isNumberChar (q.numeric_text c hc)

namespace Markup

/-! ### Attributes -/

/-- Whether an attribute is read back as it was printed. -/
structure TameAttribute (a : Attribute) : Prop where
  name : Tame a.1.toList
  /-- The name has no blank that would cut it off from its equals sign. -/
  solid : ' ' ∉ a.1.toList
  value : Tame a.2.toList

/-- For attributes that are given in full. -/
theorem tameAttribute_iff {name value : String} : TameAttribute (name, value) ↔
    (Tame name.toList ∧ ' ' ∉ name.toList) ∧ Tame value.toList :=
  ⟨fun h => ⟨⟨h.name, h.solid⟩, h.value⟩, fun h => ⟨h.1.1, h.1.2, h.2⟩⟩

/-- Whether all attributes are read back as they were printed. -/
def TameAttributes (attributes : List Attribute) : Prop :=
  ∀ a ∈ attributes, TameAttribute a

namespace TameAttributes

variable {attributes attributes' : List Attribute}

theorem append (h : TameAttributes attributes) (h' : TameAttributes attributes') :
    TameAttributes (attributes ++ attributes') :=
  List.forall_mem_append.mpr ⟨h, h'⟩

theorem plain (h : TameAttributes attributes) : PlainAttributes attributes :=
  fun a ha => ⟨(h a ha).name.plain, (h a ha).value.plain⟩

theorem legal (h : TameAttributes attributes) : LegalAttributes attributes :=
  fun a ha => ⟨(h a ha).name.legal, (h a ha).value.legal⟩

/-- Tame attributes are read back as they are. -/
theorem legible (h : TameAttributes attributes) : ∀ a ∈ attributes, Legible a :=
  fun a ha => ⟨⟨(h a ha).name.plain, (h a ha).solid⟩, (h a ha).name.unquoted,
    (h a ha).value.plain, (h a ha).value.unquoted⟩

end TameAttributes

end Markup

end SequenceChart
