/-
Readers at byte positions.

A reader begins at a position of a text and gives back the position where it
ends. What it reads it cuts out of the text, and a cut that fails leaves no
result at all. So an outcome is one of three: none, an error, or a value.

* `Bytewise.sure`, `Bytewise.need`: outcomes that need no position, and those
  that depend on one. `Bytewise.sure_bind` says when a computation has an outcome
  throughout.
* `Bytewise.located`: what a reader over characters gives back, with the position
  of its rest.
* `Bytewise.eat`, `Bytewise.skipBlanks`, `Bytewise.readName`,
  `Bytewise.readGroup`: the readers for single marks, blanks, names and groups.
* `Bytewise.find`, `Bytewise.unquote`: the position of a mark, and a text without
  its quotation marks.
-/
import SelectorPath.Proofs.Bytes.TopLevel
import SelectorPath.Proofs.Selector.Extent

namespace SelectorPath.Bytewise

open Text

/-! ### Outcomes -/

section

variable {ε α β γ δ : Type}

/-- An outcome that asks for no position. -/
def sure (x : Except ε α) : ExceptT ε Option α := ExceptT.mk (some x)

/-- What is asked for at a position. If it is not there, there is no outcome. -/
def need (x : Option α) : ExceptT ε Option α := ExceptT.mk (x.map .ok)

lemma pure_eq_sure (a : α) : (pure a : ExceptT ε Option α) = sure (.ok a) := rfl

lemma throw_eq_sure (e : ε) : (throw e : ExceptT ε Option α) = sure (.error e) := rfl

@[simp] lemma need_some (a : α) : (need (some a) : ExceptT ε Option α) = sure (.ok a) := rfl

@[simp] lemma sure_ok_bind (a : α) (f : α → ExceptT ε Option β) : sure (.ok a) >>= f = f a := rfl

/-- Two computations one after the other have an outcome if the second has one
for each value of the first. -/
lemma bind_eq_sure {x : Except ε α} {f : α → ExceptT ε Option β} {g : α → Except ε β}
    (h : ∀ a, x = .ok a → f a = sure (g a)) : sure x >>= f = sure (x >>= g) := by
  cases x with
  | error e => rfl
  | ok a => exact h a rfl

/-- The same for values that the two views write down in different ways. -/
lemma sure_bind {x : Except ε α} {p : α → γ} {f : γ → ExceptT ε Option δ}
    {g : α → Except ε β} {q : β → δ} (h : ∀ a, x = .ok a → f (p a) = sure ((g a).map q)) :
    sure (x.map p) >>= f = sure ((x >>= g).map q) := by
  cases x with
  | error e => rfl
  | ok a => exact h a rfl

end

/-- What a reader over characters gives back, with the place of its rest. -/
def located {β : Type} (text : List Char) (found : β × List Char) : β × Nat :=
  (found.1, place text found.2)

variable {text rest : List Char}

/-! ### Marks and blanks -/

/-- The position behind a mark, if the byte at a position is one. -/
def eat (text : List Char) (mark : Char) (i : Nat) : Option Nat :=
  if (encode text)[i]?.any (Symbol.is mark) then some (i + 1) else none

/-- The position behind the blanks at a position. -/
def skipBlanks (text : List Char) (i : Nat) : Nat :=
  i + (((encode text).drop i).takeWhile Symbol.isBlank).length

/-- Taking a mark up is one byte. -/
lemma lt_of_eat {mark : Char} {i j : Nat} (h : eat text mark i = some j) :
    j = i + 1 ∧ i < size text := by
  rw [eat] at h
  split_ifs at h with hbyte
  cases hb : (encode text)[i]? with
  | none => simp [hb] at hbyte
  | some b =>
      obtain ⟨hlt, -⟩ := List.getElem?_eq_some_iff.mp hb
      exact ⟨(Option.some.inj h).symm, hlt⟩

/-- A mark of ASCII is taken up where it stands. -/
lemma eat_cons {mark : Char} (hmark : mark.toNat < 128) (h : mark :: rest <:+ text) :
    eat text mark (place text (mark :: rest)) = some (place text rest) := by
  have hbyte : UInt8.ofNat mark.toNat ∈ String.utf8EncodeChar mark := by simp [encode_ascii hmark]
  rw [eat, getElem?_ascii h hmark, place_ascii hmark h, Option.any_some,
    is_of_mem_encode hmark hbyte]
  simp

/-- Where another symbol stands, its first byte is not that of the mark. -/
lemma eat_of_ne {mark : Char} (hmark : mark.toNat < 128) (h : rest <:+ text)
    (hne : mark ∉ rest.head?) : eat text mark (place text rest) = none := by
  rw [eat, getElem?_place h]
  cases rest with
  | nil => rfl
  | cons c rest =>
      obtain ⟨b, bs, hbs⟩ := List.exists_cons_of_ne_nil (String.utf8EncodeChar_ne_nil (c := c))
      have hc : c ≠ mark := fun heq => hne (heq ▸ rfl)
      have hb := is_of_mem_encode hmark (c := c) (b := b) (by simp [hbs])
      rw [encode_cons, hbs, List.cons_append, List.head?_cons, Option.any_some, hb]
      simp [hc]

/-- Blanks are skipped byte by byte as they are symbol by symbol. -/
lemma skipBlanks_place (h : rest <:+ text) :
    skipBlanks text (place text rest) = place text (Text.skipBlanks rest) := by
  have happ : rest.takeWhile Symbol.isBlank ++ Text.skipBlanks rest = rest :=
    List.takeWhile_append_dropWhile
  have hplace := place_of_append (happ.symm ▸ h)
  rw [happ] at hplace
  rw [skipBlanks, drop_place h, takeWhile_encode fun _ _ => isBlank_of_mem_encode, hplace]
  rfl

/-! ### Names -/

/-- The name at a position, and the position behind it. -/
def readName (text : List Char) (i : Nat) : Option (Option (List Char × Nat)) :=
  let j := i + (((encode text).drop i).takeWhile Symbol.isName).length
  if i < j then (slice? text i j).map fun name => some (name, j) else some none

/-- A name takes up bytes, so that loops over names come to an end. -/
lemma lt_of_readName {i j : Nat} {name : List Char} (h : readName text i = some (some (name, j))) :
    i < j := by
  rw [readName] at h
  split_ifs at h with hlt
  · obtain ⟨_, -, heq⟩ := Option.map_eq_some_iff.mp h
    obtain ⟨-, rfl⟩ := Prod.mk.inj (Option.some.inj heq)
    exact hlt
  · simp at h

lemma suffix_of_readName {name after : List Char} (h : Text.readName rest = some (name, after)) :
    after <:+ rest := ⟨name, append_of_readName h⟩

/-- A name is read as it is over the characters. -/
lemma readName_place (h : rest <:+ text) :
    readName text (place text rest) = some ((Text.readName rest).map (located text)) := by
  rw [readName, drop_place h, takeWhile_encode fun _ _ => isName_of_mem_encode]
  cases hname : Text.readName rest with
  | none =>
      have hnil : rest.takeWhile Symbol.isName = [] := by
        rw [Text.readName] at hname
        split at hname
        · assumption
        · simp at hname
      rw [hnil]
      simp
  | some r =>
      obtain ⟨name, after⟩ := r
      obtain ⟨hrun, -, hne⟩ := readName_eq_some hname
      have happ := append_of_readName hname
      subst happ
      have hpos := size_pos hne
      have hplace := place_of_append h
      rw [← hrun, length_encode, if_pos (by omega), ← hplace, slice?_place h]
      rfl

/-! ### Groups -/

/-- The body of a group at a position, cut out up to the bracket that is found,
and the position behind the bracket. -/
def readGroup (find : List UInt8 → Nat → Option (Option Nat)) (text : List Char) (i : Nat) :
    Option (Option (List Char × Nat)) := do
  match ← find (encode text) i with
  | none => return none
  | some j =>
    let body ← slice? text i j
    return some (body, j + 1)

/-- The body of an attribute test. -/
def readBracketed : List Char → Nat → Option (Option (List Char × Nat)) := readGroup bracketEnd

/-- The argument of a pseudo-class or property. -/
def readParenthesized : List Char → Nat → Option (Option (List Char × Nat)) :=
  readGroup parenthesisEnd

/-- A group takes up bytes, so that loops over groups come to an end. -/
lemma lt_of_readGroup {find : List UInt8 → Nat → Option (Option Nat)} {i j : Nat}
    {body : List Char} (h : readGroup find text i = some (some (body, j))) : i < j := by
  rw [readGroup] at h
  obtain ⟨found, -, h⟩ := Option.bind_eq_some_iff.mp h
  cases found with
  | none => simp at h
  | some k =>
      obtain ⟨body', hslice, h⟩ := Option.bind_eq_some_iff.mp h
      obtain ⟨rfl, rfl⟩ := Prod.mk.inj (Option.some.inj (Option.some.inj h))
      obtain ⟨before, after, -, hi, hk⟩ := slice?_eq_some_iff.mp hslice
      omega

/-- A group is read as it is over the characters, if its end is found there. -/
lemma readGroup_place {find : List UInt8 → Nat → Option (Option Nat)} {g : Grouping}
    (hg : IsAscii g.closing)
    (hfind : find (encode text) (place text rest) =
      some ((Text.readGroup g .top rest).map fun r => place text rest + size r.1))
    (h : rest <:+ text) :
    readGroup find text (place text rest) =
      some ((Text.readGroup g .top rest).map (located text)) := by
  rw [readGroup, hfind]
  cases hread : Text.readGroup g .top rest with
  | none => rfl
  | some r =>
      obtain ⟨body, after⟩ := r
      obtain ⟨c, hc, rfl⟩ := append_of_readGroup hread
      have hascii := hg c (isAnyOf_char.mp hc)
      have hrest : c :: after <:+ text := (List.suffix_append _ _).trans h
      have hend : place text after = place text (body ++ c :: after) + size body + 1 := by
        rw [place_ascii hascii hrest, place_of_append h]
      show ((slice? text _ (place text (body ++ c :: after) + size body)) >>= _) = _
      rw [← place_of_append h, slice?_place h, Option.map_some, located, hend]
      rfl

lemma suffix_of_readGroup {g : Grouping} {body after : List Char}
    (h : Text.readGroup g .top rest = some (body, after)) : after <:+ rest := by
  obtain ⟨c, -, rfl⟩ := append_of_readGroup h
  exact (List.suffix_cons c after).trans (List.suffix_append body (c :: after))

/-- Brackets are read at a place of the text as they are from what is left of it. -/
lemma readBracketed_place (h : rest <:+ text) :
    readBracketed text (place text rest) =
      some ((Text.readBracketed rest).map (located text)) :=
  readGroup_place (by decide) (bracketEnd_place h) h

lemma readParenthesized_place (h : rest <:+ text) :
    readParenthesized text (place text rest) =
      some ((Text.readParenthesized rest).map (located text)) :=
  readGroup_place (by decide) (parenthesisEnd_place h) h

/-! ### Cuts at a mark -/

/-- The position of the first mark of a kind. -/
def find (mark : Char) (text : List Char) : Option Nat :=
  (encode text).findIdx? (Symbol.is mark)

/-- The text before the first mark of a kind and the text behind it. -/
def cutAt (mark : Char) (text : List Char) : Option (Option (List Char × List Char)) :=
  match find mark text with
  | none => some none
  | some i => do
    let (before, _) ← splitAt? i text
    let (_, after) ← splitAt? (i + 1) text
    return some (before, after)

/-- A text is cut at a mark as it is over the characters. -/
lemma cutAt_eq {mark : Char} (hmark : mark.toNat < 128) (text : List Char) :
    cutAt mark text =
      some (match text.dropWhile (· != mark) with
        | [] => none
        | _ :: after => some (text.takeWhile (· != mark), after)) := by
  have happ : text.takeWhile (· != mark) ++ text.dropWhile (· != mark) = text :=
    List.takeWhile_append_dropWhile
  -- the search goes by bytes, and no byte in front of the mark is the mark
  have hbefore : ∀ c ∈ text.takeWhile (· != mark), Symbol.is mark c = false := by
    intro c hc
    have hne := List.mem_takeWhile_imp hc
    simpa [← Bool.not_eq_true] using hne
  cases hdrop : text.dropWhile (· != mark) with
  | nil =>
      rw [hdrop, List.append_nil] at happ
      rw [happ] at hbefore
      rw [cutAt, find, findIdx?_encode_eq_none (fun _ _ => is_of_mem_encode hmark) hbefore]
  | cons c after =>
      have hc : c = mark := by
        have hhead := List.head?_dropWhile_not (· != mark) text
        simpa [hdrop] using hhead
      subst hc
      rw [hdrop] at happ
      generalize text.takeWhile (· != c) = before at happ hbefore
      subst happ
      -- the mark is one byte, so the second cut is at a boundary as well
      have hbehind : splitAt? (size before + 1) (before ++ c :: after) =
          some (before ++ [c], after) := by
        have hsplit := splitAt?_append (before ++ [c]) after
        rwa [size_append, size_cons, utf8Size_ascii hmark, size_nil, List.append_assoc] at hsplit
      rw [cutAt, find, findIdx?_encode (fun _ _ => is_of_mem_encode hmark) hbefore (by simp)]
      show (splitAt? (size before) _ >>= _) = _
      rw [splitAt?_append]
      show (splitAt? (size before + 1) _ >>= _) = _
      rw [hbehind]
      rfl

/-! ### Quotation marks around a text -/

/-- A text without one pair of surrounding quotation marks. -/
def unquote (text : List Char) : Option (List Char) :=
  if 2 ≤ size text then do
    let first ← (encode text)[0]?
    let last ← (encode text)[size text - 1]?
    if first = last ∧ (Quote.of? first).isSome then slice? text 1 (size text - 1)
    else return text
  else some text

/-- The first and the last byte of a text belong to its first and its last
character. -/
lemma ends_encode {a z : Char} (h : text.head? = some a) (h' : text.getLast? = some z) :
    ∃ first ∈ String.utf8EncodeChar a, ∃ last ∈ String.utf8EncodeChar z,
      (encode text)[0]? = some first ∧ (encode text)[size text - 1]? = some last := by
  have hne : String.utf8EncodeChar z ≠ [] := String.utf8EncodeChar_ne_nil
  obtain ⟨rest, hrest⟩ := List.head?_eq_some_iff.mp h
  obtain ⟨init, hinit⟩ := List.getLast?_eq_some_iff.mp h'
  obtain ⟨first, more, hfirst⟩ := List.exists_cons_of_ne_nil (String.utf8EncodeChar_ne_nil (c := a))
  refine ⟨first, by simp [hfirst], (String.utf8EncodeChar z).getLast hne, List.getLast_mem hne,
    ?_, ?_⟩
  · rw [hrest, encode_cons, hfirst]
    rfl
  · rw [← length_encode, ← List.getLast?_eq_getElem?, hinit, encode_append, encode_cons, encode_nil,
      List.append_nil, List.getLast?_append_of_ne_nil _ hne, List.getLast?_eq_some_getLast hne]

/-- A text between two marks of a kind is cut out. -/
lemma slice?_quotation (q : Quote) (inner : List Char) :
    slice? (quotation q inner) 1 (size (quotation q inner) - 1) = some inner := by
  have hmark : q.mark.utf8Size = 1 := utf8Size_ascii (by cases q <;> decide)
  refine slice?_eq_some_iff.mpr ⟨[q.mark], [q.mark], rfl, ?_, ?_⟩
  · rw [size_cons, hmark, size_nil]
  · simp only [quotation, size_cons, size_append, size_nil, hmark]
    omega

/-- The marks are taken away as they are over the characters. -/
lemma unquote_eq (text : List Char) : unquote text = some (Text.unquote text) := by
  cases text with
  | nil => rfl
  | cons a rest =>
      obtain ⟨z, hz⟩ : ∃ z, (a :: rest).getLast? = some z :=
        ⟨_, List.getLast?_eq_some_getLast (List.cons_ne_nil a rest)⟩
      -- the bytes that are compared are marks just where the characters are
      obtain ⟨first, hfirst, last, hlast, hfirst', hlast'⟩ := ends_encode rfl hz
      have hfirst_of := of?_of_mem_encode hfirst
      have hlast_of := of?_of_mem_encode hlast
      rw [unquote, hfirst', hlast']
      simp only [Option.bind_eq_bind, Option.bind_some]
      cases hp : Quote.of? a with
      | none =>
          have hkept : Text.unquote (a :: rest) = a :: rest := by simp [Text.unquote, hp]
          rw [hkept, hfirst_of, hp]
          simp
      | some p =>
          obtain rfl := Quote.of?_eq_some.mp hp
          -- a lone mark does not end what it opens: the slice would be less than empty
          rcases List.eq_nil_or_concat' rest with rfl | ⟨mid, z', rfl⟩
          · have hsize : size [p.mark] = 1 := by
              rw [size_cons, utf8Size_ascii (by cases p <;> decide), size_nil]
            have hkept : Text.unquote [p.mark] = [p.mark] := by simp [Text.unquote, hp]
            rw [hsize, if_neg (by omega), hkept]
          · obtain rfl : z' = z := by
              rw [← List.cons_append, List.getLast?_concat] at hz
              exact Option.some.inj hz
            by_cases hq : Quote.of? z' = some p
            · obtain rfl := Quote.of?_eq_some.mp hq
              have hsame : first = last := by
                rw [encode_ascii (by cases p <;> decide), List.mem_singleton] at hfirst hlast
                rw [hfirst, hlast]
              have hmark : p.mark.utf8Size = 1 := utf8Size_ascii (by cases p <;> decide)
              have hsize : 2 ≤ size (p.mark :: (mid ++ [p.mark])) := by
                simp only [size_cons, size_append, hmark]
                omega
              have hinner : Text.unquote (p.mark :: (mid ++ [p.mark])) = mid := by
                simp [Text.unquote, hp]
              rw [if_pos hsize, if_pos ⟨hsame, by simp [hfirst_of, hp]⟩, hinner]
              exact slice?_quotation p mid
            · -- bytes of other characters differ from the byte of the first mark
              have hdiffer : ¬ (first = last ∧ (Quote.of? first).isSome) := by
                rintro ⟨rfl, -⟩
                rw [hfirst_of, hp] at hlast_of
                exact hq hlast_of.symm
              have hkept : Text.unquote (p.mark :: (mid ++ [z'])) = p.mark :: (mid ++ [z']) := by
                cases hq' : Quote.of? z' with
                | none => simp [Text.unquote, hp, hq']
                | some q =>
                    have hne : p ≠ q := fun heq => hq (heq ▸ hq')
                    simp [Text.unquote, hp, hq', hne]
              rw [if_neg hdiffer, hkept]
              simp

end SelectorPath.Bytewise
