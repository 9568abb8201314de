/-
SequenceChart/Cli/Decoder.lean

How the bytes of the standard input become a text.

Bytes in UTF-8 are the text that they encode, wherever they are read.  What
becomes of other bytes is a setting of the system: mostly they are refused
(`Decoder.strict`), but some systems let them through (`Decoder.escaping`).

A byte that is let through stands in the text as a character of its own, which
is drawn and printed like any other but cannot be encoded.  A character of this
kind is none that a text in UTF-8 has, so its place is taken by a stand-in, and
`Decoded.stray` tells which characters of a text are stand-ins.  They are for
private use; a text that has one of its own besides is not told apart.
-/

namespace SequenceChart.Cli

/-! ### Decoded texts -/

/-- A text that was read from bytes. -/
structure Decoded where
  text : String
  /-- The characters of the text that stand for bytes, and cannot be encoded. -/
  stray : List Char := []
  deriving DecidableEq, Repr

/-- Reads texts from bytes, in whatever way it deals with those that are none. -/
structure Decoder where
  /-- The text of some bytes, unless they are refused. -/
  decode? : ByteArray → Option Decoded
  /-- Bytes in UTF-8 are read as what they encode, without a stand-in. -/
  decode?_toUTF8 : ∀ text : String, decode? text.toUTF8 = some { text := text }

/-! ### Refusing -/

theorem fromUTF8?_toUTF8 (text : String) : String.fromUTF8? text.toUTF8 = some text :=
  dif_pos text.isValidUTF8

/-- Bytes that are no UTF-8 are refused. -/
def Decoder.strict : Decoder where
  decode? content := (String.fromUTF8? content).map fun text => { text := text }
  decode?_toUTF8 text := by rw [fromUTF8?_toUTF8, Option.map_some]

/-! ### Letting through -/

/-- The characters of some bytes, and apart from them the bytes with which no
character starts.  The first `skip` bytes belong to a character before. -/
def scan : Nat → List UInt8 → List (Char ⊕ UInt8)
  | _, [] => []
  | skip + 1, _ :: bytes => scan skip bytes
  | 0, byte :: bytes =>
    match (byte :: bytes).toByteArray.utf8DecodeChar? 0 with
    | some c => .inl c :: scan (c.utf8Size - 1) bytes
    | none => .inr byte :: scan 0 bytes

/-- A character for private use that stands for a byte. -/
def standIn (byte : UInt8) : Char :=
  Char.ofNat (0x10FF00 + byte.toNat)

theorem scan_eq_scan_zero (skip : Nat) (bytes : List UInt8) :
    scan skip bytes = scan 0 (bytes.drop skip) := by
  induction bytes generalizing skip with
  | nil => rw [List.drop_nil, scan, scan]
  | cons byte bytes ih =>
    cases skip with
    | zero => rfl
    | succ skip => rw [scan, ih, List.drop_succ_cons]

/-- The bytes of a character are read as this character. -/
theorem scan_utf8EncodeChar (c : Char) (bytes : List UInt8) :
    scan 0 (String.utf8EncodeChar c ++ bytes) = .inl c :: scan 0 bytes := by
  have hchar : (String.utf8EncodeChar c ++ bytes).toByteArray.utf8DecodeChar? 0 = some c := by
    rw [List.toByteArray_append]
    exact ByteArray.utf8DecodeChar?_utf8EncodeChar_append
  have hlength := String.length_utf8EncodeChar c
  rcases hcode : String.utf8EncodeChar c with - | ⟨byte, code⟩
  · -- there is at least one byte
    rw [hcode] at hlength
    exact absurd hlength (Nat.ne_of_lt c.utf8Size_pos)
  · rw [hcode] at hchar hlength
    rw [List.cons_append] at hchar ⊢
    have hrest : c.utf8Size - 1 = code.length := by
      rw [← hlength, List.length_cons, Nat.add_sub_cancel]
    rw [scan, hchar]
    dsimp only
    rw [scan_eq_scan_zero, hrest, List.drop_left]

/-- A text in UTF-8 is read as its characters. -/
theorem scan_toUTF8 (text : String) : scan 0 text.toUTF8.data.toList = text.toList.map .inl := by
  obtain ⟨cs, rfl⟩ : ∃ cs, text = String.ofList cs := ⟨text.toList, String.ofList_toList.symm⟩
  rw [String.toUTF8, String.toByteArray_ofList, String.toList_ofList, List.utf8Encode,
    List.toList_data_toByteArray]
  induction cs with
  | nil => rw [List.flatMap_nil, scan, List.map_nil]
  | cons c cs ih => rw [List.flatMap_cons, scan_utf8EncodeChar, ih, List.map_cons]

/-- Bytes with which no character starts are let through. -/
def Decoder.escaping : Decoder where
  decode? content :=
    let pieces := scan 0 content.data.toList
    some
      { text := String.ofList (pieces.map (Sum.elim id standIn))
        stray := (pieces.filterMap Sum.getRight?).map standIn }
  decode?_toUTF8 text := by
    have htext : (text.toList.map .inl).map (Sum.elim id standIn) = text.toList := by
      rw [List.map_map]
      exact List.map_id text.toList
    have hstray : (text.toList.map .inl).filterMap (@Sum.getRight? Char UInt8) =
        [] := by
      simp
    dsimp only
    rw [scan_toUTF8, htext, hstray, List.map_nil, String.ofList_toList]

end SequenceChart.Cli
