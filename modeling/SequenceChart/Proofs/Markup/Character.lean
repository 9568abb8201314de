/-
SequenceChart/Proofs/Markup/Character.lean

Characters that a document may hold.

Escaping writes five characters as entities and leaves all others as they are,
also those that XML allows nowhere in a document, not even as an entity: most
control characters, and two noncharacters.  A text is legal if it has none of
these (`Legal`).  Escaping neither adds nor removes one
(`legal_escapeChars_iff`), so where tags and attributes are legal, tokens are
printed to a legal text if and only if their labels are legal.  `Hinges` says
this of some tokens and their labels; there is one rule for a list without
labels, one for a labelled element, and one for putting pieces together.
-/
import Mathlib.Data.List.Forall2
import SequenceChart.Markup.Token
import SequenceChart.Proofs.Markup.Escape
import SequenceChart.Proofs.Number.Notation
import SequenceChart.Proofs.Run

namespace SequenceChart

namespace Markup

/-! ### Characters -/

/-- Closed ranges of the code points that an XML 1.0 document may hold. -/
def documentRanges : List (Nat × Nat) :=
  [(0x09, 0x0A), (0x0D, 0x0D), (0x20, 0xD7FF), (0xE000, 0xFFFD), (0x10000, 0x10FFFF)]

/-- Whether a character may stand in a document at all. -/
def isDocumentChar (c : Char) : Bool :=
  documentRanges.any fun r => r.1 ≤ c.toNat && c.toNat ≤ r.2

/-- Whether a document may hold the text. -/
def Legal (s : List Char) : Prop :=
  ∀ c ∈ s, isDocumentChar c

instance (s : List Char) : Decidable (Legal s) :=
  List.decidableBAll (fun c => isDocumentChar c = true) s

@[simp] theorem legal_nil : Legal [] := by
  simp [Legal]

@[simp] theorem legal_cons {c : Char} {s : List Char} :
    Legal (c :: s) ↔ isDocumentChar c ∧ Legal s :=
  List.forall_mem_cons

@[simp] theorem legal_append {s t : List Char} : Legal (s ++ t) ↔ Legal s ∧ Legal t :=
  List.forall_mem_append

theorem legal_flatMap {α : Type} {f : α → List Char} {xs : List α} :
    Legal (xs.flatMap f) ↔ ∀ x ∈ xs, Legal (f x) := by
  simp only [Legal, List.mem_flatMap]
  constructor
  · intro h x hx c hc
    exact h c ⟨x, hx, hc⟩
  · rintro h c ⟨x, hx, hc⟩
    exact h x hx c hc

theorem Legal.of_subset {s t : List Char} (hs : Legal s) (h : t ⊆ s) : Legal t :=
  fun c hc => hs c (h hc)

/-! ### Strings -/

/-- A literal is put together from its characters. -/
theorem legal_ofList {s : List Char} (h : Legal s) : Legal (String.ofList s).toList := by
  rwa [String.toList_ofList]

theorem Legal.toList_append {s t : String} (hs : Legal s.toList) (ht : Legal t.toList) :
    Legal (s ++ t).toList := by
  rw [String.toList_append]
  exact legal_append.mpr ⟨hs, ht⟩

/-- Pieces that are put together have the characters of the separator and of the
pieces. -/
theorem mem_intercalate {c : Char} {sep : String} {pieces : List String}
    (h : c ∈ (String.intercalate sep pieces).toList) :
    c ∈ sep.toList ∨ ∃ piece ∈ pieces, c ∈ piece.toList := by
  rw [String.toList_intercalate] at h
  induction pieces with
  | nil => cases h
  | cons piece rest ih =>
      have later : (∃ piece ∈ rest, c ∈ piece.toList) → ∃ p ∈ piece :: rest, c ∈ p.toList :=
        fun ⟨p, hp, hc⟩ => ⟨p, List.mem_cons_of_mem _ hp, hc⟩
      rw [List.map_cons] at h
      -- behind the last piece stands no separator
      by_cases hlast : rest = []
      · subst hlast
        rw [List.map_nil, List.intercalate_singleton] at h
        exact .inr ⟨piece, List.mem_cons_self, h⟩
      · rw [List.intercalate_cons_of_ne_nil (by simpa using hlast), List.mem_append,
          List.mem_append] at h
        rcases h with (h | h) | h
        · exact .inr ⟨piece, List.mem_cons_self, h⟩
        · exact .inl h
        · exact (ih h).imp_right later

theorem legal_intercalate {sep : String} (hsep : Legal sep.toList) {pieces : List String}
    (h : ∀ piece ∈ pieces, Legal piece.toList) :
    Legal (String.intercalate sep pieces).toList := by
  intro c hc
  rcases mem_intercalate hc with hc | ⟨piece, hpiece, hc⟩
  · exact hsep c hc
  · exact h piece hpiece c hc

/-! ### Escaping -/

/-- Escaping neither hides an illegal character nor makes a legal one illegal. -/
theorem legal_entityOf_iff (c : Char) : Legal (entityOf c) ↔ isDocumentChar c := by
  rcases entityOf_cases c with ⟨rfl, h⟩ | ⟨rfl, h⟩ | ⟨rfl, h⟩ | ⟨rfl, h⟩ | ⟨rfl, h⟩ | ⟨-, h⟩
  · decide
  · decide
  · decide
  · decide
  · decide
  · rw [h]
    simp

/-- **Escaping lets every character through that a document may not hold**, and
adds none. -/
theorem legal_escapeChars_iff (s : List Char) : Legal (escapeChars s) ↔ Legal s := by
  induction s with
  | nil => exact Iff.rfl
  | cons c s ih => rw [escapeChars_cons, legal_append, legal_cons, legal_entityOf_iff, ih]

end Markup

open Markup

/-! ### Numbers -/

theorem Number.isDocumentChar_of_isDigit {c : Char} (h : c.isDigit) : isDocumentChar c := by
  have hrange : 48 ≤ c.toNat ∧ c.toNat ≤ 57 := by
    simpa [Char.isDigit, Char.le_def, UInt32.le_iff_toNat_le] using h
  have hin : (0x20, 0xD7FF) ∈ documentRanges := by decide
  refine List.any_eq_true.mpr ⟨_, hin, ?_⟩
  simp only [Bool.and_eq_true, decide_eq_true_eq]
  omega

theorem Number.isDocumentChar_of_isNumberChar {c : Char} (h : isNumberChar c) :
    isDocumentChar c := by
  rcases Bool.or_eq_true_iff.mp h with hdigit | hmark
  · exact isDocumentChar_of_isDigit hdigit
  · have hmarks : ['-', '+', '.', 'e', 'i', 'n', 'f', 'a'].all isDocumentChar := by decide
    exact List.all_eq_true.mp hmarks c (by simpa using hmark)

theorem Quantity.legal_text (q : Quantity) : Legal q.text.toList :=
  fun c hc => Number.isDocumentChar_of_isNumberChar (q.numeric_text c hc)

/-! ### Tokens -/

namespace Markup

/-- Whether names and values of the attributes are legal. -/
def LegalAttributes (attributes : List Attribute) : Prop :=
  ∀ a ∈ attributes, Legal a.1.toList ∧ Legal a.2.toList

theorem legal_attributeChars {attributes : List Attribute} (h : LegalAttributes attributes) :
    Legal (attributes.flatMap Token.attributeChars) := by
  rw [legal_flatMap]
  intro a ha
  obtain ⟨hname, hvalue⟩ := h a ha
  have hblank : isDocumentChar ' ' := by decide
  have hequals : isDocumentChar '=' := by decide
  have hquote : isDocumentChar '"' := by decide
  simp [Token.attributeChars, hname, hvalue, hblank, hequals, hquote]

theorem legal_start {name : String} {attributes : List Attribute} (hname : Legal name.toList)
    (h : LegalAttributes attributes) : Legal (Token.start name attributes).chars := by
  have hopen : isDocumentChar '<' := by decide
  have hclose : isDocumentChar '>' := by decide
  simp [Token.chars, hname, legal_attributeChars h, hopen, hclose]

theorem legal_void {name : String} {attributes : List Attribute} (hname : Legal name.toList)
    (h : LegalAttributes attributes) : Legal (Token.void name attributes).chars := by
  have hopen : isDocumentChar '<' := by decide
  have hclose : Legal [' ', '/', '>'] := by decide
  rw [Token.chars, List.cons_append, List.cons_append, legal_cons, legal_append, legal_append]
  exact ⟨hopen, ⟨hname, legal_attributeChars h⟩, hclose⟩

theorem legal_finish {name : String} (hname : Legal name.toList) :
    Legal (Token.finish name).chars := by
  have hopen : isDocumentChar '<' := by decide
  have hslash : isDocumentChar '/' := by decide
  have hclose : isDocumentChar '>' := by decide
  simp [Token.chars, hname, hopen, hslash, hclose]

/-- The text of the tokens is legal if and only if the labels are. -/
def Hinges (tokens : List Token) (labels : List String) : Prop :=
  Legal (tokens.flatMap Token.chars) ↔ ∀ label ∈ labels, Legal label.toList

namespace Hinges

variable {tokens tokens' : List Token} {labels labels' : List String} {name : String}
  {attributes : List Attribute}

theorem nil : Hinges [] [] := by
  simp [Hinges]

theorem append (h : Hinges tokens labels) (h' : Hinges tokens' labels') :
    Hinges (tokens ++ tokens') (labels ++ labels') := by
  unfold Hinges at h h' ⊢
  rw [List.flatMap_append, legal_append, h, h', List.forall_mem_append]

/-- One token without a label, in front of others. -/
theorem cons {token : Token} (htoken : Legal token.chars) (h : Hinges tokens labels) :
    Hinges (token :: tokens) labels := by
  unfold Hinges at h ⊢
  rw [List.flatMap_cons, legal_append, h, and_iff_right htoken]

/-- A labelled element is as legal as its label. -/
theorem labelled (hname : Legal name.toList) (h : LegalAttributes attributes) (text : String) :
    Hinges (Markup.labelled name attributes text) [text] := by
  have hstart := legal_start hname h
  have hfinish := legal_finish hname
  have hlabel : Legal (Token.label text).chars ↔ Legal text.toList := legal_escapeChars_iff _
  simp only [Hinges, Markup.labelled, List.flatMap_cons, List.flatMap_nil, List.append_nil,
    legal_append, hlabel, List.forall_mem_singleton, and_iff_left hfinish, and_iff_right hstart]

/-- Pieces on lines of their own. -/
theorem onLines {pieces : List (List Token)} {shown : List (List String)}
    (h : List.Forall₂ Hinges pieces shown) : Hinges (Markup.onLines pieces) shown.flatten := by
  induction h with
  | nil => exact nil
  | @cons piece _ rest _ hpiece _ ih =>
      by_cases hlast : rest = []
      · subst hlast
        rw [Markup.onLines, List.intercalate_singleton, ← List.append_nil piece]
        exact hpiece.append ih
      · rw [Markup.onLines, List.intercalate_cons_of_ne_nil hlast, List.append_assoc]
        exact hpiece.append (cons (by decide) ih)

/-- Drawing every element of a list. -/
theorem mapM {α : Type} {draw : α → Calc (List Token)} {labelsOf : α → List String}
    (hdraw : ∀ x tokens, draw x = .ok tokens → Hinges tokens (labelsOf x)) {xs : List α}
    {pieces : List (List Token)} (h : xs.mapM draw = .ok pieces) :
    List.Forall₂ Hinges pieces (xs.map labelsOf) :=
  forall₂_of_mapM hdraw h

end Hinges

end Markup

end SequenceChart
