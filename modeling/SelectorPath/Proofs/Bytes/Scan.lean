/-
Scans over the bytes of a text, by position.

A scan looks at one byte after the other. It asks for bytes at positions and
cuts texts there, and each of these fails where there is no such position: then
there is no result (`none`). Here no scan fails on the bytes of a text, and what
is found is what the passes over the characters find.

* `Bytewise.skipQuoted`: the position behind a quotation.
* `Bytewise.Scan`, `Bytewise.Scan.run`: a scan that goes over quotations.
* `Bytewise.bracketEnd`, `Bytewise.parenthesisEnd`: the position where a group
  ends (`Bytewise.bracketEnd_place`, `Bytewise.parenthesisEnd_place`).
-/
import SelectorPath.Proofs.Bytes.Encoding
import SelectorPath.Proofs.Text.Quotations

namespace SelectorPath.Bytewise

open Text

/-! ### Quotations -/

/-- The position behind the quotation that the mark at a position opens, if it
ends. The bytes after the mark are asked for. -/
def skipQuoted (bytes : List UInt8) (opened : Nat) (mark : UInt8) : Option (Option Nat) :=
  if opened + 1 ≤ bytes.length then
    some (((bytes.drop (opened + 1)).findIdx? (· == mark)).map fun n => opened + n + 2)
  else none

/-- The end of a quotation is further on, and not behind the end of the text. -/
lemma lt_of_skipQuoted {bytes : List UInt8} {i j : Nat} {mark : UInt8}
    (h : skipQuoted bytes i mark = some (some j)) : i < j ∧ j ≤ bytes.length := by
  rw [skipQuoted] at h
  split_ifs at h
  obtain ⟨n, hn, rfl⟩ := Option.map_eq_some_iff.mp (Option.some.inj h)
  obtain ⟨hlt, -⟩ := List.findIdx?_eq_some_iff_getElem.mp hn
  rw [List.length_drop] at hlt
  omega

/-! ### Scans that go over quotations -/

/-- A scan: what it makes of a byte that is no quotation mark, going on with a
state or ending with a result, and what it ends with at the end of the text and
at a quotation left open. -/
structure Scan (σ β : Type) where
  /-- The state after a byte at a position, or the result. -/
  step : σ → Nat → UInt8 → Option (σ ⊕ β)
  /-- The result at the end of the text. -/
  finish : σ → Option β
  /-- The result at a quotation left open. -/
  abandon : σ → Option β

variable {σ β : Type}

/-- The result of a scan that goes on from a position. -/
def Scan.run (scan : Scan σ β) (bytes : List UInt8) (s : σ) (i : Nat) : Option β :=
  match _h : bytes[i]? with
  | none => scan.finish s
  | some b =>
    if (Quote.of? b).isSome then
      match _h : skipQuoted bytes i b with
      | none => none
      | some none => scan.abandon s
      | some (some j) => run scan bytes s j
    else
      match scan.step s i b with
      | none => none
      | some (.inl s) => run scan bytes s (i + 1)
      | some (.inr found) => some found
termination_by bytes.length - i
decreasing_by
  · have := lt_of_skipQuoted _h
    omega
  · obtain ⟨hlt, -⟩ := List.getElem?_eq_some_iff.mp _h
    omega

section

variable {scan : Scan σ β} {bytes : List UInt8} {s s' : σ} {i j : Nat} {b : UInt8}

lemma run_of_none (h : bytes[i]? = none) : scan.run bytes s i = scan.finish s := by
  rw [Scan.run]
  split
  · rfl
  · simp_all

/-- At a quotation mark a scan jumps behind the quotation, or stops if that is not closed. -/
lemma run_of_quote (h : bytes[i]? = some b) (hb : (Quote.of? b).isSome) :
    scan.run bytes s i =
      match skipQuoted bytes i b with
      | none => none
      | some none => scan.abandon s
      | some (some j) => scan.run bytes s j := by
  rw [Scan.run]
  split
  · simp_all
  · next b' h' =>
      obtain rfl : b = b' := Option.some.inj (h.symm.trans h')
      rw [if_pos hb]
      split <;> simp_all

/-- At any other byte it takes a step. -/
lemma run_of_byte (h : bytes[i]? = some b) (hb : Quote.of? b = none) :
    scan.run bytes s i =
      match scan.step s i b with
      | none => none
      | some (.inl s) => scan.run bytes s (i + 1)
      | some (.inr found) => some found := by
  rw [Scan.run]
  split
  · simp_all
  · next b' h' =>
      obtain rfl : b = b' := Option.some.inj (h.symm.trans h')
      rw [if_neg (by simp [hb])]

end

/-! ### One character of a text -/

variable {text rest : List Char}

/-- The byte at a place is the first byte of what follows. -/
lemma getElem?_place (h : rest <:+ text) :
    (encode text)[place text rest]? = (encode rest).head? := by
  rw [← drop_place h, List.head?_drop]

/-- The byte at the place of a symbol of ASCII is that symbol. -/
lemma getElem?_ascii {c : Char} (h : c :: rest <:+ text) (hascii : c.toNat < 128) :
    (encode text)[place text (c :: rest)]? = some (UInt8.ofNat c.toNat) := by
  rw [getElem?_place h, encode_cons, encode_ascii hascii]
  rfl

/-- No byte of a symbol beyond ASCII is a quotation mark. -/
lemma of?_of_mem_encode {c : Char} {b : UInt8} (h : b ∈ String.utf8EncodeChar c) :
    Quote.of? b = Quote.of? c := by
  rw [Quote.of?, Quote.of?, is_of_mem_encode (by decide) h, is_of_mem_encode (by decide) h]

/-- The byte of a quotation mark. -/
def markByte (q : Quote) : UInt8 := UInt8.ofNat q.mark.toNat

lemma getElem?_mark {q : Quote} (h : q.mark :: rest <:+ text) :
    (encode text)[place text (q.mark :: rest)]? = some (markByte q) :=
  getElem?_ascii h (by cases q <;> decide)

/-- A quotation begins with its mark. -/
lemma getElem?_quotation {q : Quote} {inner : List Char} (h : quotation q inner ++ rest <:+ text) :
    (encode text)[place text (quotation q inner ++ rest)]? = some (markByte q) := by
  rw [quotation_append] at h ⊢
  exact getElem?_mark h

lemma beq_markByte {q : Quote} {c : Char} {b : UInt8} (h : b ∈ String.utf8EncodeChar c) :
    (b == markByte q) = (c == q.mark) := by
  have hmark : (markByte q).toNat = q.mark.toNat := by cases q <;> rfl
  have hbyte : (b == markByte q) = Symbol.is q.mark b := by
    rw [Symbol.is, Bool.eq_iff_iff, beq_iff_eq, beq_iff_eq, ← hmark]
    exact UInt8.toNat_inj.symm
  rw [hbyte, is_of_mem_encode (by cases q <;> decide) h, Bool.eq_iff_iff, Symbol.is_char,
    beq_iff_eq]

/-- The bytes behind a mark are there to be searched. -/
lemma skipQuoted_place {q : Quote} (h : q.mark :: rest <:+ text) :
    skipQuoted (encode text) (place text (q.mark :: rest)) (markByte q) =
      some (((encode rest).findIdx? (· == markByte q)).map fun n =>
        place text (q.mark :: rest) + n + 2) := by
  have hnext := place_ascii (by cases q <;> decide) h
  have hrest : rest <:+ text := (List.suffix_cons _ _).trans h
  have hle := place_le_size text rest
  rw [skipQuoted, if_pos (by rw [length_encode]; omega), ← hnext, drop_place hrest]

/-- A quotation that is not closed is seen to be so. -/
lemma skipQuoted_unclosed {q : Quote} (h : q.mark :: rest <:+ text) (hfree : q.mark ∉ rest) :
    skipQuoted (encode text) (place text (q.mark :: rest)) (markByte q) = some none := by
  have hne : ∀ c ∈ rest, (c == q.mark) = false := by
    intro c hc
    rw [beq_eq_false_iff_ne]
    rintro rfl
    exact hfree hc
  rw [skipQuoted_place h, findIdx?_encode_eq_none (fun _ _ => beq_markByte) hne]
  rfl

/-- A quotation is skipped as a whole, with what stands in it. -/
lemma skipQuoted_quotation {q : Quote} {inner : List Char}
    (h : quotation q inner ++ rest <:+ text) (hfree : q.mark ∉ inner) :
    skipQuoted (encode text) (place text (quotation q inner ++ rest)) (markByte q) =
      some (some (place text rest)) := by
  have hne : ∀ c ∈ inner, (c == q.mark) = false := by
    intro c hc
    rw [beq_eq_false_iff_ne]
    rintro rfl
    exact hfree hc
  have hmark : q.mark.utf8Size = 1 := utf8Size_ascii (by cases q <;> decide)
  have hsize : size (quotation q inner) = size inner + 2 := by
    simp only [quotation, size_cons, size_append, size_nil, hmark]
    omega
  rw [place_of_append h, hsize]
  rw [quotation_append] at h ⊢
  rw [skipQuoted_place h, findIdx?_encode (fun _ _ => beq_markByte) hne (beq_self_eq_true _)]
  rfl

section

variable {scan : Scan σ β} {s s' : σ} {c : Char}

lemma run_nil (text : List Char) : scan.run (encode text) s (place text []) = scan.finish s :=
  run_of_none (by rw [getElem?_place List.nil_suffix]; rfl)

/-- A quotation left open ends the scan. -/
lemma run_unclosed {q : Quote} (h : q.mark :: rest <:+ text) (hfree : q.mark ∉ rest) :
    scan.run (encode text) s (place text (q.mark :: rest)) = scan.abandon s := by
  rw [run_of_quote (getElem?_mark h) (by cases q <;> decide), skipQuoted_unclosed h hfree]

/-- A scan goes over a quotation. -/
lemma run_quotation {q : Quote} {inner : List Char}
    (h : quotation q inner ++ rest <:+ text) (hfree : q.mark ∉ inner) :
    scan.run (encode text) s (place text (quotation q inner ++ rest)) =
      scan.run (encode text) s (place text rest) := by
  rw [run_of_quote (getElem?_quotation h) (by cases q <;> decide), skipQuoted_quotation h hfree]

/-- An ASCII character is one step of the scan. -/
lemma run_ascii (h : c :: rest <:+ text) (hascii : c.toNat < 128) (hc : Quote.of? c = none) :
    scan.run (encode text) s (place text (c :: rest)) =
      match scan.step s (place text (c :: rest)) (UInt8.ofNat c.toNat) with
      | none => none
      | some (.inl s) => scan.run (encode text) s (place text rest)
      | some (.inr found) => some found := by
  have hquote : Quote.of? (UInt8.ofNat c.toNat) = none := by
    rw [of?_of_mem_encode (c := c) (by simp [encode_ascii hascii]), hc]
  rw [run_of_byte (getElem?_ascii h hascii) hquote, place_ascii hascii h]

/-- A character of which no byte means anything to the scan is passed over. -/
lemma run_plain (h : c :: rest <:+ text) (hc : Quote.of? c = none)
    (hstep : ∀ i, ∀ b ∈ String.utf8EncodeChar c, (encode text)[i]? = some b →
      scan.step s i b = some (.inl s)) :
    scan.run (encode text) s (place text (c :: rest)) =
      scan.run (encode text) s (place text rest) := by
  -- byte by byte, with the bytes of the character that are left
  have hbytes : ∀ (bs : List UInt8) (i : Nat), (∀ b ∈ bs, b ∈ String.utf8EncodeChar c) →
      bs <+: (encode text).drop i →
      scan.run (encode text) s i = scan.run (encode text) s (i + bs.length) := by
    intro bs
    induction bs with
    | nil => simp
    | cons b bs ih =>
        intro i hmem hpre
        obtain ⟨hb, hbs⟩ := List.forall_mem_cons.mp hmem
        obtain ⟨tail, htail⟩ := hpre
        have hbyte : (encode text)[i]? = some b := by
          rw [← List.head?_drop, ← htail]
          rfl
        have hdrop : bs <+: (encode text).drop (i + 1) :=
          ⟨tail, by rw [← List.drop_drop, ← htail]; rfl⟩
        rw [run_of_byte hbyte ((of?_of_mem_encode hb).trans hc), hstep i b hb hbyte]
        show scan.run (encode text) s (i + 1) = _
        rw [ih (i + 1) hbs hdrop, List.length_cons]
        congr 1
        omega
  rw [place_cons h, ← String.length_utf8EncodeChar]
  refine hbytes _ _ (fun b hb => hb) ⟨encode rest, ?_⟩
  rw [drop_place h, encode_cons]

end

/-! ### The end of an argument -/

/-- The scan for the parenthesis that closes an argument. The depth is counted
down at a closing parenthesis, which fails at zero. -/
def parentheses : Scan Nat (Option Nat) where
  step depth i b :=
    if Symbol.is '(' b then some (.inl (depth + 1))
    else if Symbol.is ')' b then
      match depth with
      | 0 => none
      | 1 => some (.inr (some i))
      | depth + 2 => some (.inl (depth + 1))
    else some (.inl depth)
  finish _ := some none
  abandon _ := some none

/-- The position of the parenthesis that closes the argument which begins at a
position. -/
def parenthesisEnd (bytes : List UInt8) (i : Nat) : Option (Option Nat) :=
  parentheses.run bytes 1 i

/-- The end of a group, seen from behind its first part. -/
lemma map_place_add_size {part : List Char} (h : part ++ rest <:+ text)
    (found : Option (List Char × List Char)) :
    (found.map fun r => (part ++ r.1, r.2)).map (fun r => place text (part ++ rest) + size r.1) =
      found.map fun r => place text rest + size r.1 := by
  rw [Option.map_map]
  congr 1
  funext r
  exact place_add_size h r.1

/-- Counting parentheses by bytes finds the one that closes the group, by induction along
quotations. -/
lemma run_parentheses (depth : Nat) (h : rest <:+ text) :
    parentheses.run (encode text) (depth + 1) (place text rest) =
      some ((readGroup .round ⟨depth, none⟩ rest).map fun r => place text rest + size r.1) := by
  induction rest using quotation_induction generalizing depth with
  | nil => exact run_nil text
  | unclosed q inner hfree =>
      rw [run_unclosed h hfree, readGroup_unclosed (by cases q <;> decide) hfree]
      rfl
  | closed q inner rest hfree ih =>
      rw [run_quotation h hfree, readGroup_quotation (by cases q <;> decide) hfree,
        map_place_add_size h, ih depth ((List.suffix_append _ _).trans h)]
  | other c rest hc ih =>
      have hrest := (List.suffix_cons c rest).trans h
      have hpart := map_place_add_size (show [c] ++ rest <:+ text from h)
      -- quotations were skipped as wholes, so the parentheses alone move the depth
      by_cases hopen : c = '('
      · subst hopen
        rw [run_ascii h (by decide) hc, readGroup,
          if_neg (by simp [Nesting.closedBy, isAnyOf_char, Grouping.round])]
        exact (ih (depth + 1) hrest).trans (congrArg some (hpart _).symm)
      · by_cases hclose : c = ')'
        · subst hclose
          rw [run_ascii h (by decide) hc]
          cases depth with
          | zero => rfl
          | succ depth =>
              rw [readGroup, if_neg (by simp [Nesting.closedBy])]
              exact (ih depth hrest).trans (congrArg some (hpart _).symm)
        · have hclosed : ¬ Nesting.closedBy .round ⟨depth, none⟩ c = true := by
            simp [Nesting.closedBy, isAnyOf_char, Grouping.round, hclose]
          have hstep : Nesting.step .round ⟨depth, none⟩ c = ⟨depth, none⟩ := by
            simp [Nesting.step, hc, isAnyOf_char, Grouping.round, hopen, hclose]
          rw [run_plain h hc, readGroup, if_neg hclosed, hstep]
          · exact (ih depth hrest).trans (congrArg some (hpart _).symm)
          · intro i b hb _
            have hb₁ := is_of_mem_encode (show '('.toNat < 128 by decide) hb
            have hb₂ := is_of_mem_encode (show ')'.toNat < 128 by decide) hb
            simp [parentheses, hb₁, hb₂, hopen, hclose]

/-- The end of an argument is found where the pass over the characters finds
it. -/
theorem parenthesisEnd_place (h : rest <:+ text) :
    parenthesisEnd (encode text) (place text rest) =
      some ((readParenthesized rest).map fun r => place text rest + size r.1) :=
  run_parentheses 0 h

/-! ### The end of an attribute test -/

/-- The marks that the search for the end of an attribute test stops at. -/
def isBracketMark {α : Type} [Symbol α] (a : α) : Bool :=
  Symbol.is ']' a || Symbol.is '"' a || Symbol.is '\'' a

/-- The position of the bracket that closes the attribute test which begins at a
position. From there and from behind each quotation on, the bytes are searched
for the next mark. -/
def bracketEnd (bytes : List UInt8) (i : Nat) : Option (Option Nat) :=
  if i ≤ bytes.length then
    match (bytes.drop i).findIdx? isBracketMark with
    | none => some none
    | some offset =>
      match bytes[i + offset]? with
      | none => none
      | some b =>
        if Symbol.is ']' b then some (some (i + offset))
        else
          match _h : skipQuoted bytes (i + offset) b with
          | none => none
          | some none => some none
          | some (some j) => bracketEnd bytes j
  else none
termination_by bytes.length - i
decreasing_by
  have := lt_of_skipQuoted _h
  omega

/-- What comes of a mark that is found at a position. -/
def bracketAt (bytes : List UInt8) (i : Nat) : Option (Option Nat) :=
  match bytes[i]? with
  | none => none
  | some b =>
    if Symbol.is ']' b then some (some i)
    else
      match skipQuoted bytes i b with
      | none => none
      | some none => some none
      | some (some j) => bracketEnd bytes j

/-- The loop for brackets is a search for the next byte that concerns it. -/
lemma bracketEnd_eq {bytes : List UInt8} {i : Nat} (hi : i ≤ bytes.length) :
    bracketEnd bytes i =
      match (bytes.drop i).findIdx? isBracketMark with
      | none => some none
      | some offset => bracketAt bytes (i + offset) := by
  rw [bracketEnd, if_pos hi]
  split
  · rfl
  · rw [bracketAt]
    split
    · rfl
    · split_ifs
      · rfl
      · split <;> simp_all

/-- Nothing is found in bytes that are no marks. -/
lemma bracketEnd_add {bytes bs : List UInt8} {i : Nat} (h : bs <+: bytes.drop i)
    (hi : i + bs.length ≤ bytes.length) (hbs : ∀ b ∈ bs, isBracketMark b = false) :
    bracketEnd bytes i = bracketEnd bytes (i + bs.length) := by
  obtain ⟨tail, htail⟩ := h
  have hdrop : bytes.drop (i + bs.length) = tail := by
    rw [← List.drop_drop, ← htail, List.drop_left]
  have hnone : bs.findIdx? isBracketMark = none := List.findIdx?_eq_none_iff.mpr hbs
  rw [bracketEnd_eq (by omega), bracketEnd_eq hi, hdrop, ← htail, List.findIdx?_append, hnone]
  cases tail.findIdx? isBracketMark with
  | none => rfl
  | some offset =>
      show bracketAt bytes (i + (offset + bs.length)) = bracketAt bytes (i + bs.length + offset)
      congr 1
      omega

lemma isBracketMark_of_mem_encode {c : Char} {b : UInt8} (h : b ∈ String.utf8EncodeChar c) :
    isBracketMark b = isBracketMark c := by
  rw [isBracketMark, isBracketMark, is_of_mem_encode (by decide) h,
    is_of_mem_encode (by decide) h, is_of_mem_encode (by decide) h]

/-- A mark at a place is found there. -/
lemma bracketEnd_mark {c : Char} (h : c :: rest <:+ text) (hc : isBracketMark c = true) :
    bracketEnd (encode text) (place text (c :: rest)) =
      bracketAt (encode text) (place text (c :: rest)) := by
  have hfind : (encode ([] ++ c :: rest)).findIdx? isBracketMark = some (size []) :=
    findIdx?_encode (fun _ _ => isBracketMark_of_mem_encode) (by simp) hc rest
  rw [bracketEnd_eq (place_le_size _ _), drop_place h]
  rw [List.nil_append] at hfind
  rw [hfind]
  rfl

/-- The end of an attribute test is found where the pass over the characters
finds it. -/
theorem bracketEnd_place (h : rest <:+ text) :
    bracketEnd (encode text) (place text rest) =
      some ((readBracketed rest).map fun r => place text rest + size r.1) := by
  rw [readBracketed, Nesting.top]
  -- the depth stays zero all the way, since an opening bracket does not count inside a bracket
  induction rest using quotation_induction with
  | nil =>
      rw [bracketEnd_eq (place_le_size _ _), drop_place h]
      rfl
  | unclosed q inner hfree =>
      have hmark : Symbol.is ']' (markByte q) = false := by cases q <;> decide
      rw [bracketEnd_mark h (by cases q <;> decide), bracketAt, getElem?_mark h]
      simp only [hmark, Bool.false_eq_true, if_false]
      rw [skipQuoted_unclosed h hfree, readGroup_unclosed (by cases q <;> decide) hfree]
      rfl
  | closed q inner rest hfree ih =>
      have hmark : Symbol.is ']' (markByte q) = false := by cases q <;> decide
      have hfound : bracketEnd (encode text) (place text (quotation q inner ++ rest)) =
          bracketAt (encode text) (place text (quotation q inner ++ rest)) := by
        rw [quotation_append] at h ⊢
        exact bracketEnd_mark h (by cases q <;> decide)
      rw [hfound, bracketAt, getElem?_quotation h]
      simp only [hmark, Bool.false_eq_true, if_false]
      rw [skipQuoted_quotation h hfree, readGroup_quotation (by cases q <;> decide) hfree,
        map_place_add_size h]
      exact ih ((List.suffix_append _ _).trans h)
  | other c rest hc ih =>
      by_cases hclose : c = ']'
      · subst hclose
        rw [bracketEnd_mark h (by decide), bracketAt, getElem?_ascii h (by decide)]
        rfl
      · have hplain : isBracketMark c = false := by
          rw [Quote.of?] at hc
          split_ifs at hc with hdouble hsingle
          have hbracket : Symbol.is ']' c = false := by simpa [← Bool.not_eq_true] using hclose
          simp [isBracketMark, hdouble, hsingle, hbracket]
        have hclosed : ¬ Nesting.closedBy .square ⟨0, none⟩ c = true := by
          simp [Nesting.closedBy, isAnyOf_char, Grouping.square, hclose]
        have hstep : Nesting.step .square ⟨0, none⟩ c = ⟨0, none⟩ := by
          simp [Nesting.step, hc, isAnyOf_char, Grouping.square, hclose]
        have hrest := (List.suffix_cons c rest).trans h
        have hplace : place text rest =
            place text (c :: rest) + (String.utf8EncodeChar c).length := by
          rw [place_cons h, String.length_utf8EncodeChar]
        have hle := place_le_size text rest
        have hskip : bracketEnd (encode text) (place text (c :: rest)) =
            bracketEnd (encode text) (place text rest) := by
          rw [hplace]
          refine bracketEnd_add ⟨encode rest, ?_⟩ (by rw [length_encode, ← hplace]; exact hle) ?_
          · rw [drop_place h, encode_cons]
          · intro b hb
            rw [isBracketMark_of_mem_encode hb, hplain]
        rw [hskip, ih hrest, readGroup, if_neg hclosed, hstep]
        exact congrArg some (map_place_add_size (show [c] ++ rest <:+ text from h) _).symm

end SelectorPath.Bytewise
