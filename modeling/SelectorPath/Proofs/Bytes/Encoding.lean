/-
Texts and the bytes of their UTF-8 form.

Positions in a text are counted in bytes. A text can be cut only between two
characters, so a cut at any other position fails.

* `Text.encode`, `Text.size`: the bytes of a text and their number.
* `Text.splitAt?`, `Text.slice?`: cuts at byte positions, which fail inside a
  character and behind the end (`Text.isSome_splitAt?_iff`).
* `Text.place`: the position in front of the end of a text.
* `Text.of_mem_encode`: a class of symbols that is decided by ASCII codes holds
  the bytes of a character exactly if it holds the character.
* `Text.encode_lt_encode`: the bytes of a smaller text are smaller.
-/
import Mathlib.Data.List.Basic
import Mathlib.Tactic.Lemma
import Mathlib.Tactic.SplitIfs
import SelectorPath.Text.Symbol

namespace SelectorPath.Text

/-! ### Bytes -/

/-- The bytes of the UTF-8 form of a text. -/
def encode (text : List Char) : List UInt8 := text.flatMap String.utf8EncodeChar

/-- The number of bytes of a text. -/
def size (text : List Char) : Nat := (encode text).length

@[simp] lemma encode_nil : encode [] = [] := rfl

@[simp] lemma encode_cons (c : Char) (text : List Char) :
    encode (c :: text) = String.utf8EncodeChar c ++ encode text := rfl

@[simp] lemma encode_append (left right : List Char) :
    encode (left ++ right) = encode left ++ encode right :=
  List.flatMap_append

@[simp] lemma length_encode (text : List Char) : (encode text).length = size text := rfl

@[simp] lemma size_nil : size [] = 0 := rfl

@[simp] lemma size_cons (c : Char) (text : List Char) :
    size (c :: text) = c.utf8Size + size text := by
  rw [size, encode_cons, List.length_append, String.length_utf8EncodeChar, length_encode]

@[simp] lemma size_append (left right : List Char) :
    size (left ++ right) = size left + size right := by
  rw [size, encode_append, List.length_append, length_encode, length_encode]

/-- Every symbol has at least one byte. -/
lemma size_pos {text : List Char} (h : text ≠ []) : 0 < size text := by
  obtain ⟨c, rest, rfl⟩ := List.exists_cons_of_ne_nil h
  have hc := Char.utf8Size_pos c
  rw [size_cons]
  omega

/-- The bytes of a text are the bytes of the string. -/
lemma utf8ByteSize_ofList (text : List Char) : (String.ofList text).utf8ByteSize = size text := by
  induction text with
  | nil => rfl
  | cons c text ih =>
      have hlist : c :: text = [c] ++ text := rfl
      rw [hlist, String.ofList_append, String.utf8ByteSize_append, ih, size_append]
      simp

/-! ### Characters and their bytes -/

/-- Every byte has the code of its character, or both codes are beyond ASCII. -/
lemma code_of_mem_encode {c : Char} {b : UInt8} (h : b ∈ String.utf8EncodeChar c) :
    Symbol.code b = Symbol.code c ∨ 128 ≤ Symbol.code b ∧ 128 ≤ Symbol.code c := by
  have hcode : Symbol.code c = c.val.toNat := rfl
  have hbyte : ∀ n, Symbol.code (UInt8.ofNat n) = n % 256 := fun n => UInt8.toNat_ofNat
  rw [String.utf8EncodeChar] at h
  split_ifs at h with h1 h2 h3
  · left
    rw [List.mem_singleton.mp h, hbyte, hcode]
    omega
  all_goals
    right
    simp only [List.mem_cons, List.not_mem_nil, or_false] at h
    rcases h with rfl | rfl | rfl | rfl <;> rw [hbyte, hcode] <;> omega

/-- A class of symbols that holds all codes beyond ASCII or none of them holds
the bytes of a character exactly if it holds the character. -/
lemma of_mem_encode {p : Nat → Bool} (hp : ∀ n, 128 ≤ n → p n = p 128) {c : Char} {b : UInt8}
    (h : b ∈ String.utf8EncodeChar c) : p (Symbol.code b) = p (Symbol.code c) := by
  rcases code_of_mem_encode h with heq | ⟨hb, hc⟩
  · rw [heq]
  · rw [hp _ hb, hp _ hc]

/-- Each byte of a symbol is a byte of a name if the symbol is one. Beyond ASCII all of
them are. -/
lemma isName_of_mem_encode {c : Char} {b : UInt8} (h : b ∈ String.utf8EncodeChar c) :
    Symbol.isName b = Symbol.isName c := by
  refine of_mem_encode (p := fun n => (0x41 ≤ n && n ≤ 0x5A) || (0x61 ≤ n && n ≤ 0x7A) ||
    (0x30 ≤ n && n ≤ 0x39) || n == 0x5F || n == 0x2D || 0x80 ≤ n) (fun n hn => ?_) h
  simp [show 0x80 ≤ n from hn]

/-- The bytes of symbols beyond ASCII are not blanks. -/
lemma isBlank_of_mem_encode {c : Char} {b : UInt8} (h : b ∈ String.utf8EncodeChar c) :
    Symbol.isBlank b = Symbol.isBlank c := by
  refine of_mem_encode (p := fun n => n == 0x20 || n == 0x09 || n == 0x0A || n == 0x0D ||
    n == 0x0C) (fun n hn => ?_) h
  have hne : ∀ m, m < 128 → (n == m) = false := fun m hm => beq_eq_false_iff_ne.mpr (by omega)
  simp [hne]

/-- An ASCII mark is met at a byte exactly if it is met at the character. -/
lemma is_of_mem_encode {mark : Char} (hmark : mark.toNat < 128) {c : Char} {b : UInt8}
    (h : b ∈ String.utf8EncodeChar c) : Symbol.is mark b = Symbol.is mark c := by
  refine of_mem_encode (p := fun n => n == mark.toNat) (fun n hn => ?_) h
  have hne : ∀ m, 128 ≤ m → (m == mark.toNat) = false :=
    fun m hm => beq_eq_false_iff_ne.mpr (by omega)
  rw [hne n hn, hne 128 (Nat.le_refl _)]

/-- The first byte of a text is a byte of its first character. -/
lemma mem_encode_of_head? {c : Char} {rest : List Char} {b : UInt8}
    (h : b ∈ (encode (c :: rest)).head?) : b ∈ String.utf8EncodeChar c := by
  obtain ⟨first, more, hfirst⟩ := List.exists_cons_of_ne_nil (String.utf8EncodeChar_ne_nil (c := c))
  rw [encode_cons, hfirst] at h
  obtain rfl := Option.some.inj h
  simp [hfirst]

/-- The byte of an ASCII character. -/
lemma encode_ascii {c : Char} (h : c.toNat < 128) :
    String.utf8EncodeChar c = [UInt8.ofNat c.toNat] := by
  have hval : c.val.toNat ≤ 0x7f := Nat.le_of_lt_succ h
  rw [String.utf8EncodeChar, if_pos hval]
  rfl

lemma utf8Size_ascii {c : Char} (h : c.toNat < 128) : c.utf8Size = 1 := by
  rw [← String.length_utf8EncodeChar, encode_ascii h, List.length_singleton]

/-- All characters are ASCII. -/
def IsAscii (text : List Char) : Prop := ∀ c ∈ text, c.toNat < 128

instance (text : List Char) : Decidable (IsAscii text) := List.decidableBAll _ text

section

variable {p : Char → Bool} {q : UInt8 → Bool}
  (hpq : ∀ (c : Char) (b : UInt8), b ∈ String.utf8EncodeChar c → q b = p c)

include hpq

/-- The longest run of a class of symbols has the same bytes in both views. -/
lemma takeWhile_encode (text : List Char) :
    (encode text).takeWhile q = encode (text.takeWhile p) := by
  induction text with
  | nil => rfl
  | cons c text ih =>
      rw [encode_cons, List.takeWhile_cons]
      split_ifs with hc
      · rw [List.takeWhile_append_of_pos fun b hb => (hpq c b hb).trans hc, ih, encode_cons]
      · obtain ⟨b, bs, hbs⟩ := List.exists_cons_of_ne_nil (String.utf8EncodeChar_ne_nil (c := c))
        have hb := hpq c b (by simp [hbs])
        rw [hbs, List.cons_append, List.takeWhile_cons_of_neg (by rwa [hb]), encode_nil]

/-- The first symbol of a class is met at the same place in both views. -/
lemma findIdx?_encode {before : List Char} (hbefore : ∀ c ∈ before, p c = false) {c : Char}
    (hc : p c = true) (after : List Char) :
    (encode (before ++ c :: after)).findIdx? q = some (size before) := by
  obtain ⟨b, bs, hbs⟩ := List.exists_cons_of_ne_nil (String.utf8EncodeChar_ne_nil (c := c))
  have hb : q b = true := by rw [hpq c b (by simp [hbs]), hc]
  have hnone : (encode before).findIdx? q = none := by
    rw [List.findIdx?_eq_none_iff]
    intro a ha
    obtain ⟨d, hd, had⟩ := List.mem_flatMap.mp ha
    rw [hpq d a had, hbefore d hd]
  rw [encode_append, encode_cons, hbs, List.findIdx?_append, hnone, List.cons_append,
    List.findIdx?_cons, if_pos hb]
  simp

/-- A byte that no symbol of the text has is not found. -/
lemma findIdx?_encode_eq_none {text : List Char} (h : ∀ c ∈ text, p c = false) :
    (encode text).findIdx? q = none := by
  rw [List.findIdx?_eq_none_iff]
  intro b hb
  obtain ⟨c, hc, hbc⟩ := List.mem_flatMap.mp hb
  rw [hpq c b hbc, h c hc]

end

/-! ### Order -/

/-- The first bytes decide, unless they are the same. -/
lemma cons_ofNat_lt_iff {m n : Nat} (hm : m < 256) (hn : n < 256) {l r : List UInt8} :
    UInt8.ofNat m :: l < UInt8.ofNat n :: r ↔ m < n ∨ m = n ∧ l < r := by
  have hbyte : ∀ n, n < 256 → (UInt8.ofNat n).toNat = n :=
    fun n hn => UInt8.toNat_ofNat.trans (Nat.mod_eq_of_lt hn)
  rw [List.cons_lt_cons_iff, UInt8.lt_iff_toNat_lt, ← UInt8.toNat_inj, hbyte m hm, hbyte n hn]

/-- The bytes of a smaller character are smaller, whatever follows. -/
lemma encodeChar_append_lt {c d : Char} (h : c < d) (l r : List UInt8) :
    String.utf8EncodeChar c ++ l < String.utf8EncodeChar d ++ r := by
  have hcd : c.val.toNat < d.val.toNat := h
  have hvalid : ∀ c : Char, c.val.toNat < 0x110000 := by
    intro c
    have hc := c.valid
    rw [UInt32.isValidChar, Nat.isValidChar] at hc
    omega
  have hc := hvalid c
  have hd := hvalid d
  -- the digits to base 64, one from the other
  have hdigits : ∀ v, v / 0x1000 = v / 0x40 / 0x40 ∧ v / 0x40000 = v / 0x40 / 0x40 / 0x40 := by
    omega
  rw [String.utf8EncodeChar, String.utf8EncodeChar]
  simp only [hdigits]
  -- of different lengths the first byte decides, else the first digit that differs
  split_ifs
  all_goals
    simp only [List.cons_append, List.nil_append]
    repeat rw [cons_ofNat_lt_iff (by omega) (by omega)]
    omega

/-- The order of texts by their symbols is that by their bytes. -/
lemma encode_lt_encode {text text' : List Char} (h : text < text') :
    encode text < encode text' := by
  induction text generalizing text' with
  | nil =>
      cases text' with
      | nil => exact absurd h (List.lt_irrefl [])
      | cons d text' =>
          obtain ⟨b, bs, hbs⟩ := List.exists_cons_of_ne_nil (String.utf8EncodeChar_ne_nil (c := d))
          rw [encode_cons, hbs]
          exact List.nil_lt_cons b _
  | cons c text ih =>
      cases text' with
      | nil => exact absurd h (List.not_lt_nil _)
      | cons d text' =>
          rcases List.cons_lt_cons_iff.mp h with hlt | ⟨rfl, hlt⟩
          · exact encodeChar_append_lt hlt _ _
          · exact List.append_left_lt (ih hlt)

/-! ### Cuts -/

/-- The text before a position and the text after it, unless the position is
inside a character or behind the end. -/
def splitAt? (n : Nat) (text : List Char) : Option (List Char × List Char) :=
  if n = 0 then some ([], text)
  else
    match text with
    | [] => none
    | c :: rest =>
      if c.utf8Size ≤ n then
        (splitAt? (n - c.utf8Size) rest).map fun (before, after) => (c :: before, after)
      else none

/-- The text between two positions. -/
def slice? (text : List Char) (i j : Nat) : Option (List Char) := do
  let (before, _) ← splitAt? j text
  let (_, part) ← splitAt? i before
  return part

/-- A cut that succeeds is a cut between two symbols. -/
lemma append_of_splitAt? {n : Nat} {text before after : List Char}
    (h : splitAt? n text = some (before, after)) : text = before ++ after ∧ size before = n := by
  induction text generalizing n before with
  | nil =>
      rw [splitAt?] at h
      split_ifs at h with hn
      obtain ⟨rfl, rfl⟩ := Prod.mk.inj (Option.some.inj h)
      exact ⟨rfl, hn.symm⟩
  | cons c text ih =>
      rw [splitAt?] at h
      split_ifs at h with hn hc
      · obtain ⟨rfl, rfl⟩ := Prod.mk.inj (Option.some.inj h)
        exact ⟨rfl, hn.symm⟩
      · obtain ⟨⟨before', after'⟩, hsplit, heq⟩ := Option.map_eq_some_iff.mp h
        obtain ⟨rfl, rfl⟩ := Prod.mk.inj heq
        obtain ⟨rfl, hsize⟩ := ih hsplit
        refine ⟨rfl, ?_⟩
        rw [size_cons, hsize]
        omega

/-- Between two symbols a cut succeeds. -/
lemma splitAt?_append (before after : List Char) :
    splitAt? (size before) (before ++ after) = some (before, after) := by
  induction before with
  | nil => rw [splitAt?.eq_def, if_pos size_nil, List.nil_append]
  | cons c before ih =>
      have hpos := Char.utf8Size_pos c
      have hrest : c.utf8Size + size before - c.utf8Size = size before := by omega
      rw [size_cons, List.cons_append, splitAt?, if_neg (by omega), if_pos (by omega), hrest, ih]
      rfl

/-- A cut succeeds between two characters and nowhere else. -/
lemma splitAt?_eq_some_iff {n : Nat} {text before after : List Char} :
    splitAt? n text = some (before, after) ↔ text = before ++ after ∧ size before = n := by
  constructor
  · exact append_of_splitAt?
  · rintro ⟨rfl, rfl⟩
    exact splitAt?_append before after

/-- The positions of successful cuts are the valid positions of the string. -/
theorem isSome_splitAt?_iff {n : Nat} {text : List Char} :
    (splitAt? n text).isSome ↔ String.Pos.Raw.IsValid (String.ofList text) ⟨n⟩ := by
  rw [String.Pos.Raw.isValid_ofList, Option.isSome_iff_exists]
  constructor
  · rintro ⟨⟨before, after⟩, h⟩
    obtain ⟨rfl, rfl⟩ := splitAt?_eq_some_iff.mp h
    exact ⟨before.length, by rw [List.take_left, utf8ByteSize_ofList]⟩
  · rintro ⟨i, hi⟩
    refine ⟨(text.take i, text.drop i), splitAt?_eq_some_iff.mpr ⟨?_, ?_⟩⟩
    · rw [List.take_append_drop]
    · rw [← utf8ByteSize_ofList]
      exact hi.symm

/-- The text between two positions is a part of the text that begins at the first
of them and ends at the second. -/
lemma slice?_eq_some_iff {text part : List Char} {i j : Nat} :
    slice? text i j = some part ↔
      ∃ before after, text = before ++ (part ++ after) ∧ size before = i ∧
        size before + size part = j := by
  rw [slice?]
  constructor
  · intro h
    obtain ⟨⟨upto, after⟩, hj, h⟩ := Option.bind_eq_some_iff.mp h
    obtain ⟨⟨before, part'⟩, hi, h⟩ := Option.bind_eq_some_iff.mp h
    obtain rfl := Option.some.inj h
    obtain ⟨htext, hupto⟩ := splitAt?_eq_some_iff.mp hj
    obtain ⟨rfl, hbefore⟩ := splitAt?_eq_some_iff.mp hi
    rw [size_append] at hupto
    exact ⟨before, after, by rw [htext, List.append_assoc], hbefore, hupto⟩
  · rintro ⟨before, after, rfl, rfl, rfl⟩
    refine Option.bind_eq_some_iff.mpr ⟨(before ++ part, after), ?_, ?_⟩
    · rw [← List.append_assoc, ← size_append]
      exact splitAt?_append (before ++ part) after
    · exact Option.bind_eq_some_iff.mpr ⟨(before, part), splitAt?_append before part, rfl⟩

/-! ### Places -/

/-- The position in a text in front of its last part. -/
def place (text rest : List Char) : Nat := size text - size rest

lemma place_append (before rest : List Char) : place (before ++ rest) rest = size before := by
  rw [place, size_append, Nat.add_sub_cancel]

@[simp] lemma place_self (text : List Char) : place text text = 0 := Nat.sub_self _

@[simp] lemma place_nil (text : List Char) : place text [] = size text := rfl

lemma place_lt_size {text rest : List Char} (h : rest <:+ text) (hne : rest ≠ []) :
    place text rest < size text := by
  obtain ⟨before, rfl⟩ := h
  have hpos := size_pos hne
  rw [place_append, size_append]
  omega

lemma place_le_size (text rest : List Char) : place text rest ≤ size text := Nat.sub_le _ _

/-- The place behind a part. -/
lemma place_of_append {text part rest : List Char} (h : part ++ rest <:+ text) :
    place text rest = place text (part ++ rest) + size part := by
  obtain ⟨before, rfl⟩ := h
  rw [place_append, ← List.append_assoc, place_append, size_append]

/-- The place behind a character. -/
lemma place_cons {text rest : List Char} {c : Char} (h : c :: rest <:+ text) :
    place text rest = place text (c :: rest) + c.utf8Size := by
  have hplace : place text rest = place text ([c] ++ rest) + size [c] := place_of_append h
  rwa [size_cons, size_nil] at hplace

/-- A symbol of ASCII is one byte further. -/
lemma place_ascii {text rest : List Char} {c : Char} (hascii : c.toNat < 128)
    (h : c :: rest <:+ text) : place text rest = place text (c :: rest) + 1 := by
  rw [place_cons h, utf8Size_ascii hascii]

/-- The end of a body that begins with a part, seen from behind the part. -/
lemma place_add_size {text part rest : List Char} (h : part ++ rest <:+ text)
    (body : List Char) :
    place text (part ++ rest) + size (part ++ body) = place text rest + size body := by
  rw [place_of_append h, size_append]
  omega

/-- The bytes from a place on. -/
lemma drop_place {text rest : List Char} (h : rest <:+ text) :
    (encode text).drop (place text rest) = encode rest := by
  obtain ⟨before, rfl⟩ := h
  rw [place_append, encode_append, size, List.drop_left]

/-- The text can be cut at a place. -/
lemma splitAt?_place {text rest : List Char} (h : rest <:+ text) :
    ∃ before, text = before ++ rest ∧ splitAt? (place text rest) text = some (before, rest) := by
  obtain ⟨before, rfl⟩ := h
  exact ⟨before, rfl, splitAt?_eq_some_iff.mpr ⟨rfl, (place_append before rest).symm⟩⟩

/-- The text between two places. -/
lemma slice?_place {text part rest : List Char} (h : part ++ rest <:+ text) :
    slice? text (place text (part ++ rest)) (place text rest) = some part := by
  have hplace := place_of_append h
  obtain ⟨before, rfl⟩ := h
  refine slice?_eq_some_iff.mpr ⟨before, rest, rfl, (place_append _ _).symm, ?_⟩
  rw [hplace, place_append]

end SelectorPath.Text
