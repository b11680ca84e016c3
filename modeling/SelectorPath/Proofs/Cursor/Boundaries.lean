/-
Cursors between two characters.

A cursor stands between two characters exactly if the text can be cut there. What a
call finds from there on are the bytes of characters, so every call has an answer. Of
the calls only those that move by bytes can leave the cursor anywhere else.

* `Cursor.between`: the cursor between two parts of a text;
  `Cursor.isOnBoundary_iff`: these are all cursors on a boundary.
* `Cursor.decode?_encode`, `Cursor.decode?_eq_none`: bytes that are a text, and bytes
  that are none because they begin inside a character.
* `Cursor.reading_between`: the answer to a call that reads between two characters.
* `Cursor.exists_rest_of_not_isOnBoundary`: what is left in front of a cursor inside a
  character.
-/
import SelectorPath.Cursor
import SelectorPath.Proofs.Bytes.Images

namespace SelectorPath.Cursor

open Text (encode size encode_append length_encode)

/-! ### Boundaries -/

/-- The cursor goes over the bytes of the text. -/
def IsOver (c : Cursor) (text : String) : Prop := c.bytes = text.toUTF8.toList

/-- The cursor stands in front of a character of the text or at its end. -/
def IsOnBoundary (c : Cursor) (text : String) : Prop :=
  String.Pos.Raw.IsValid text ⟨c.position⟩

/-- The cursor between two parts of a text. -/
def between (left right : List Char) : Cursor :=
  ⟨encode (left ++ right), size left, by simp⟩

/-- A cursor is its bytes and how many of them are behind it. -/
lemma eq_of_position {c c' : Cursor} (hbytes : c.bytes = c'.bytes)
    (hposition : c.position = c'.position) : c = c' := by
  cases c
  cases c'
  simp_all

lemma ofText_eq (text : String) : ofText text = between [] text.toList :=
  eq_of_position (Text.toList_toUTF8 text) rfl

@[simp] lemma bytes_between (left right : List Char) :
    (between left right).bytes = encode (left ++ right) := rfl

@[simp] lemma position_between (left right : List Char) :
    (between left right).position = size left := rfl

@[simp] lemma rest_between (left right : List Char) : (between left right).rest = encode right := by
  rw [rest, bytes_between, position_between, encode_append, size, List.drop_left]

/-- A cursor between two parts is over the text that they make up. -/
lemma isOver_between {text : String} {left right : List Char} (h : text.toList = left ++ right) :
    (between left right).IsOver text := by
  rw [IsOver, Text.toList_toUTF8, h, bytes_between]

lemma length_of_isOver {c : Cursor} {text : String} (h : c.IsOver text) :
    c.bytes.length = text.utf8ByteSize := by
  rw [h, Text.toList_toUTF8, length_encode, ← Text.utf8ByteSize_ofList, String.ofList_toList]

/-- The cursors on a boundary are those between two parts of the text. -/
theorem isOnBoundary_iff {c : Cursor} {text : String} (h : c.IsOver text) :
    c.IsOnBoundary text ↔ ∃ left right, text.toList = left ++ right ∧ c = between left right := by
  have hvalid : c.IsOnBoundary text ↔ (Text.splitAt? c.position text.toList).isSome := by
    rw [Text.isSome_splitAt?_iff, String.ofList_toList, IsOnBoundary]
  rw [hvalid, Option.isSome_iff_exists]
  rw [IsOver, Text.toList_toUTF8] at h
  constructor
  · rintro ⟨⟨left, right⟩, hcut⟩
    obtain ⟨htext, hsize⟩ := Text.splitAt?_eq_some_iff.mp hcut
    exact ⟨left, right, htext, eq_of_position (h.trans (by rw [htext]; rfl)) hsize.symm⟩
  · rintro ⟨left, right, htext, rfl⟩
    exact ⟨(left, right), Text.splitAt?_eq_some_iff.mpr ⟨htext, rfl⟩⟩

lemma isOnBoundary_between {text : String} {left right : List Char}
    (h : text.toList = left ++ right) : (between left right).IsOnBoundary text :=
  (isOnBoundary_iff (isOver_between h)).mpr ⟨left, right, h, rfl⟩

/-! ### Bytes that are a text -/

lemma decode?_toUTF8 (text : String) : decode? text.toUTF8.toList = some text := by
  rw [decode?, Text.toList_eq_data, Array.toArray_toList, String.fromUTF8?]
  exact dif_pos text.isValidUTF8

/-- Bytes of symbols are decoded to these symbols. -/
lemma decode?_encode (text : List Char) : decode? (encode text) = some (String.ofList text) := by
  rw [← decode?_toUTF8, Text.toList_toUTF8, String.toList_ofList]

/-- Bytes that do not begin with the first byte of a character are no text. -/
lemma decode?_eq_none {b : UInt8} (hb : ¬ b.IsUTF8FirstByte) (bytes : List UInt8) :
    decode? (b :: bytes) = none := by
  rw [decode?, String.fromUTF8?, dif_neg]
  intro hvalid
  exact hb (hvalid.isUTF8FirstByte_getElem_zero (by simp [ByteArray.size]))

/-! ### Inside a character -/

/-- A byte inside a symbol is none that a cursor looks for. -/
lemma code_of_not_isUTF8FirstByte {b : UInt8} (hb : ¬ b.IsUTF8FirstByte) :
    128 ≤ Symbol.code b := by
  have hand : ∀ n < 128, n &&& 128 = 0 := by decide
  by_contra hlt
  refine hb (Or.inl (UInt8.toNat_inj.mp ?_))
  rw [UInt8.toNat_and]
  exact hand _ (Nat.lt_of_not_le hlt)

/-- A cursor inside a character has a byte in front of it with which no character
begins. -/
lemma exists_rest_of_not_isOnBoundary {c : Cursor} {text : String} (hover : c.IsOver text)
    (h : ¬ c.IsOnBoundary text) :
    ∃ b rest, c.rest = b :: rest ∧ ¬ b.IsUTF8FirstByte := by
  rw [IsOnBoundary, String.Pos.Raw.isValid_iff_isUTF8FirstByte] at h
  push Not at h
  obtain ⟨hend, hbyte⟩ := h
  have hlt : c.position < text.utf8ByteSize := by
    have hle := c.position_le
    rw [length_of_isOver hover] at hle
    exact Nat.lt_of_le_of_ne hle fun heq => hend (by rw [heq]; rfl)
  have hdrop : c.position < c.bytes.length := by rwa [length_of_isOver hover]
  refine ⟨c.bytes[c.position], c.bytes.drop (c.position + 1), List.drop_eq_getElem_cons hdrop, ?_⟩
  have hget : c.bytes[c.position] = text.getUTF8Byte ⟨c.position⟩ hlt := by
    obtain ⟨bytes, position, hle⟩ := c
    obtain rfl : bytes = text.toUTF8.toList := hover
    simp only [Text.toList_eq_data]
    rfl
  rw [hget]
  exact hbyte hlt

/-! ### Moves -/

/-- The cursor moves over a part of the text. -/
lemma before_between (left part right : List Char) :
    (between left (part ++ right)).before (encode right) = between (left ++ part) right := by
  refine eq_of_position ?_ ?_
  · simp [before, advance]
  · simp [before, advance]

/-- What is read in front of a part of the text is a text. -/
lemma reading_between (left part right body : List Char) :
    (between left (part ++ right)).reading (some (encode body, encode right)) =
      some (.text (some (String.ofList body)), between (left ++ part) right) := by
  rw [reading, decode?_encode, before_between]
  rfl

end SelectorPath.Cursor
