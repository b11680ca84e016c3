/-
What is read of the bytes of a text.

The passes and readers of this library look at symbols of any kind. Over the bytes
of a text they find the bytes of what they find over its characters: all marks are
ASCII, and the bytes of the other characters mean nothing to them.

* `Text.past_encode`: the same is open after the bytes of a text.
* `Text.cut_encode`: the bytes of the pieces.
* `Text.readGroup_encode`, `Text.readName_encode`, `Text.skipBlanks_encode`: the
  bytes of a group, of a name, and of what follows.
* `Text.toList_toUTF8`: the bytes of a string.
-/
import SelectorPath.Proofs.Bytes.TopLevel
import SelectorPath.Proofs.Text.TopLevel

namespace SelectorPath.Text

open Bytewise (of?_of_mem_encode isAnyOf_of_mem_encode)

/-! ### One character -/

/-- All brackets of a grouping are ASCII. -/
structure HasAsciiMarks (g : Grouping) : Prop where
  opening : IsAscii g.opening
  closing : IsAscii g.closing

lemma hasAsciiMarks_any : HasAsciiMarks .any := ⟨by decide, by decide⟩

lemma hasAsciiMarks_round : HasAsciiMarks .round := ⟨by decide, by decide⟩

lemma hasAsciiMarks_square : HasAsciiMarks .square := ⟨by decide, by decide⟩

section

variable {g : Grouping} (hg : HasAsciiMarks g) {s : Nesting} {c : Char} {b : UInt8}

include hg

/-- A byte moves a pass as the symbol does that it belongs to. -/
lemma step_of_mem_encode (h : b ∈ String.utf8EncodeChar c) : s.step g b = s.step g c := by
  rw [Nesting.step, Nesting.step, of?_of_mem_encode h, isAnyOf_of_mem_encode hg.opening h,
    isAnyOf_of_mem_encode hg.closing h]

lemma closedBy_of_mem_encode (h : b ∈ String.utf8EncodeChar c) :
    s.closedBy g b = s.closedBy g c := by
  rw [Nesting.closedBy, Nesting.closedBy, isAnyOf_of_mem_encode hg.closing h]

lemma exposes_of_mem_encode (h : b ∈ String.utf8EncodeChar c) :
    s.exposes g b = s.exposes g c := by
  rw [Nesting.exposes, Nesting.exposes, of?_of_mem_encode h, isAnyOf_of_mem_encode hg.opening h,
    isAnyOf_of_mem_encode hg.closing h]

end

/-- A character beyond ASCII is none of the marks. -/
lemma isAnyOf_eq_false {marks : List Char} (hmarks : IsAscii marks) {c : Char}
    (hc : 128 ≤ c.toNat) : Symbol.isAnyOf marks c = false := by
  rw [← Bool.not_eq_true, isAnyOf_char]
  intro hmem
  have hlt := hmarks c hmem
  omega

/-- Symbols beyond ASCII mean nothing to a pass. -/
lemma step_beyond_ascii {g : Grouping} (hg : HasAsciiMarks g) (s : Nesting) {c : Char}
    (hc : 128 ≤ c.toNat) : s.step g c = s := by
  have hquote : Quote.of? c = none := by
    cases hquote : Quote.of? c with
    | none => rfl
    | some q =>
        rw [Quote.of?_eq_some.mp hquote] at hc
        exact absurd hc (by cases q <;> decide)
  have hopening := isAnyOf_eq_false hg.opening hc
  have hclosing := isAnyOf_eq_false hg.closing hc
  obtain ⟨depth, quote⟩ := s
  cases quote <;> simp [Nesting.step, hquote, hopening, hclosing]

/-! ### Passes -/

/-- Symbols that change nothing one by one change nothing. -/
lemma past_eq_self {α : Type} [Symbol α] {g : Grouping} {s : Nesting} {text : List α}
    (h : ∀ a ∈ text, s.step g a = s) : s.past g text = s := by
  induction text with
  | nil => rfl
  | cons a text ih =>
      obtain ⟨ha, htext⟩ := List.forall_mem_cons.mp h
      rw [Nesting.past_cons, ha, ih htext]

/-- The bytes of a symbol move a pass as the symbol does. -/
lemma past_encodeChar {g : Grouping} (hg : HasAsciiMarks g) (s : Nesting) (c : Char) :
    s.past g (String.utf8EncodeChar c) = s.step g c := by
  rcases Nat.lt_or_ge c.toNat 128 with hascii | hbeyond
  · rw [encode_ascii hascii, Nesting.past_cons, Nesting.past_nil,
      step_of_mem_encode hg (c := c) (by simp [encode_ascii hascii])]
  · rw [step_beyond_ascii hg s hbeyond]
    exact past_eq_self fun b hb => by rw [step_of_mem_encode hg hb, step_beyond_ascii hg s hbeyond]

/-- The same is open after the bytes of a text as after its characters. -/
theorem past_encode {g : Grouping} (hg : HasAsciiMarks g) (s : Nesting) (text : List Char) :
    s.past g (encode text) = s.past g text := by
  induction text generalizing s with
  | nil => rfl
  | cons c text ih =>
      rw [encode_cons, Nesting.past_append, past_encodeChar hg, ih, Nesting.past_cons]

/-! ### Pieces -/

section Pieces

variable {delimiter : Char}

/-- Symbols that mean nothing to the pass belong to the piece in front of which they
stand. -/
lemma cut_append_of_inert {α : Type} [Symbol α] {s : Nesting} {front : List α}
    (h : ∀ a ∈ front, s.step .any a = s ∧ Symbol.is delimiter a = false) (text : List α) :
    cut delimiter s (front ++ text) =
      (cut delimiter s text).map fun found => (front ++ found.1, found.2) := by
  induction front with
  | nil => simp
  | cons a front ih =>
      obtain ⟨⟨hstep, his⟩, hfront⟩ := List.forall_mem_cons.mp h
      rw [List.cons_append, cut, hstep, ih hfront, Option.map_map]
      simp [his, Function.comp_def]

/-- The pieces of the bytes are the bytes of the pieces. -/
lemma cut_encode (hascii : delimiter.toNat < 128) (s : Nesting) (text : List Char) :
    cut delimiter s (encode text) =
      (cut delimiter s text).map fun found => (encode found.1, found.2.map encode) := by
  induction text generalizing s with
  | nil =>
      rw [encode_nil, cut, cut]
      split_ifs <;> rfl
  | cons c text ih =>
      -- a character is one byte, which counts as it does, or its bytes all count as nothing
      rcases Nat.lt_or_ge c.toNat 128 with hc | hbeyond
      · have hbyte : UInt8.ofNat c.toNat ∈ String.utf8EncodeChar c := by simp [encode_ascii hc]
        rw [encode_cons, encode_ascii hc, List.singleton_append, cut,
          step_of_mem_encode hasAsciiMarks_any hbyte, exposes_of_mem_encode hasAsciiMarks_any hbyte,
          is_of_mem_encode hascii hbyte, ih, cut, Option.map_map, Option.map_map]
        congr 1
        funext found
        dsimp only [Function.comp_apply]
        split_ifs
        · rfl
        · simp [encode_ascii hc]
      · have hne : c ≠ delimiter := by
          rintro rfl
          omega
        have his : Symbol.is delimiter c = false := by simpa [← Bool.not_eq_true] using hne
        rw [encode_cons, cut_append_of_inert, ih, cut,
          step_beyond_ascii hasAsciiMarks_any s hbeyond, Option.map_map, Option.map_map]
        · simp [his, Function.comp_def]
        · intro b hb
          rw [step_of_mem_encode hasAsciiMarks_any hb,
            step_beyond_ascii hasAsciiMarks_any s hbeyond, is_of_mem_encode hascii hb]
          exact ⟨rfl, his⟩

end Pieces

/-! ### Groups -/

section Groups

variable {g : Grouping}

/-- Symbols that mean nothing to the pass belong to the group. -/
lemma readGroup_append_of_inert {α : Type} [Symbol α] {s : Nesting} {front : List α}
    (h : ∀ a ∈ front, s.step g a = s ∧ s.closedBy g a = false) (text : List α) :
    readGroup g s (front ++ text) =
      (readGroup g s text).map fun found => (front ++ found.1, found.2) := by
  induction front with
  | nil => simp
  | cons a front ih =>
      obtain ⟨⟨hstep, hclosed⟩, hfront⟩ := List.forall_mem_cons.mp h
      rw [List.cons_append, readGroup, hclosed, hstep, ih hfront]
      simp [Function.comp_def]

/-- The bytes of a group are the group of the bytes. -/
theorem readGroup_encode (hg : HasAsciiMarks g) (s : Nesting) (text : List Char) :
    readGroup g s (encode text) =
      (readGroup g s text).map fun found => (encode found.1, encode found.2) := by
  induction text generalizing s with
  | nil => rfl
  | cons c text ih =>
      rcases Nat.lt_or_ge c.toNat 128 with hc | hbeyond
      · have hbyte : UInt8.ofNat c.toNat ∈ String.utf8EncodeChar c := by simp [encode_ascii hc]
        rw [encode_cons, encode_ascii hc, List.singleton_append, readGroup,
          step_of_mem_encode hg hbyte, closedBy_of_mem_encode hg hbyte, ih, readGroup]
        split_ifs
        · rfl
        · simp [encode_ascii hc, Function.comp_def]
      · have hclosed : s.closedBy g c = false := by
          rw [Nesting.closedBy, isAnyOf_eq_false hg.closing hbeyond, Bool.and_false]
        rw [encode_cons, readGroup_append_of_inert, ih, readGroup, hclosed,
          step_beyond_ascii hg s hbeyond]
        · simp [Function.comp_def]
        · intro b hb
          rw [step_of_mem_encode hg hb, step_beyond_ascii hg s hbeyond,
            closedBy_of_mem_encode hg hb]
          exact ⟨rfl, hclosed⟩

end Groups

/-! ### Runs of symbols -/

/-- What is left after the longest run of a class of symbols. -/
lemma dropWhile_encode {p : Char → Bool} {q : UInt8 → Bool}
    (hpq : ∀ (c : Char) (b : UInt8), b ∈ String.utf8EncodeChar c → q b = p c)
    (text : List Char) : (encode text).dropWhile q = encode (text.dropWhile p) := by
  have happ : (encode text).takeWhile q ++ (encode text).dropWhile q = encode text :=
    List.takeWhile_append_dropWhile
  have happ' : text.takeWhile p ++ text.dropWhile p = text := List.takeWhile_append_dropWhile
  have hencode := congrArg encode happ'
  rw [encode_append, ← takeWhile_encode hpq] at hencode
  exact List.append_cancel_left (happ.trans hencode.symm)

lemma skipBlanks_encode (text : List Char) : skipBlanks (encode text) = encode (skipBlanks text) :=
  dropWhile_encode (fun _ _ => isBlank_of_mem_encode) text

/-- Names end at the same place in the text and in its bytes. -/
lemma readName_encode (text : List Char) :
    readName (encode text) =
      (readName text).map fun found => (encode found.1, encode found.2) := by
  rw [readName, readName, takeWhile_encode fun _ _ => isName_of_mem_encode,
    dropWhile_encode fun _ _ => isName_of_mem_encode]
  cases text.takeWhile Symbol.isName with
  | nil => rfl
  | cons c name =>
      obtain ⟨b, bs, hbs⟩ := List.exists_cons_of_ne_nil (String.utf8EncodeChar_ne_nil (c := c))
      simp [hbs]

/-! ### Strings -/

/-- What the loop has still to visit is what is left of the array. -/
lemma toList_loop (bytes : ByteArray) (i : Nat) (before : List UInt8) :
    ByteArray.toList.loop bytes i before = before.reverse ++ bytes.data.toList.drop i := by
  fun_induction ByteArray.toList.loop bytes i before with
  | case1 i before hlt ih =>
      have hi : i < bytes.data.toList.length := hlt
      rw [ih, List.drop_eq_getElem_cons hi, List.reverse_cons, List.append_assoc,
        List.singleton_append]
      simp [ByteArray.get!, hlt]
  | case2 i before hge =>
      have hi : bytes.data.toList.length ≤ i := Nat.le_of_not_lt hge
      rw [List.drop_eq_nil_of_le hi, List.append_nil]

lemma toList_eq_data (bytes : ByteArray) : bytes.toList = bytes.data.toList := by
  rw [ByteArray.toList, toList_loop]
  rfl

/-- The bytes of a string. -/
lemma toList_toUTF8 (text : String) : text.toUTF8.toList = encode text.toList := by
  rw [toList_eq_data, String.toUTF8, ← String.utf8Encode_toList]
  simp [encode, List.utf8Encode]

end SelectorPath.Text
