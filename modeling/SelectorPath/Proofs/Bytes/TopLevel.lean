/-
Scans for what stands outside all groups and quotations.

* `Bytewise.splitTopLevel`: the pieces between delimiters, each cut out where it
  ends (`Bytewise.splitTopLevel_eq`).
* `Bytewise.lastTopLevel`: the last position of `::`
  (`Bytewise.lastTopLevel_eq`).
-/
import SelectorPath.Proofs.Bytes.Scan

namespace SelectorPath.Bytewise

open Text

variable {text rest : List Char}

/-! ### Pieces between delimiters -/

/-- The scan for delimiters: the depth, the position where the current piece
begins, and the pieces before it. -/
def pieces (delimiter : Char) (text : List Char) :
    Scan (Nat × Nat × List (List Char)) (Option (List (List Char))) where
  step := fun (depth, start, parts) i b =>
    if Symbol.isAnyOf Grouping.any.opening b then some (.inl (depth + 1, start, parts))
    else if Symbol.isAnyOf Grouping.any.closing b then some (.inl (depth - 1, start, parts))
    else if Symbol.is delimiter b && depth == 0 then
      (slice? text start i).map fun piece => .inl (depth, i + 1, parts ++ [piece])
    else some (.inl (depth, start, parts))
  finish := fun (_, start, parts) =>
    (splitAt? start text).map fun (_, piece) => some (parts ++ [piece])
  abandon _ := some none

/-- The pieces of a text between its top-level delimiters. -/
def splitTopLevel (delimiter : Char) (text : List Char) : Option (Option (List (List Char))) :=
  (pieces delimiter text).run (encode text) (0, 0, []) 0

lemma isAnyOf_of_mem_encode {marks : List Char} (hmarks : IsAscii marks) {c : Char} {b : UInt8}
    (h : b ∈ String.utf8EncodeChar c) :
    Symbol.isAnyOf marks b = Symbol.isAnyOf marks c := by
  rw [Symbol.isAnyOf, Symbol.isAnyOf, Bool.eq_iff_iff, List.any_eq_true, List.any_eq_true]
  refine exists_congr fun mark => and_congr_right fun hmark => ?_
  rw [is_of_mem_encode (hmarks mark hmark) h]

/-- The bytes of a plain character are no brackets. -/
lemma isAnyOf_bytes_of_isPlain {c : Char} (h : IsPlain c) {b : UInt8}
    (hb : b ∈ String.utf8EncodeChar c) :
    Symbol.isAnyOf Grouping.any.opening b = false ∧
      Symbol.isAnyOf Grouping.any.closing b = false := by
  rw [isAnyOf_of_mem_encode (by decide) hb, isAnyOf_of_mem_encode (by decide) hb]
  exact isAnyOf_of_isPlain h

/-- A plain character ends a piece if it is an exposed delimiter. -/
lemma step_pieces {delimiter c : Char} (hascii : delimiter.toNat < 128) (h : IsPlain c)
    {b : UInt8} (hb : b ∈ String.utf8EncodeChar c) (depth start i : Nat)
    (parts : List (List Char)) :
    (pieces delimiter text).step (depth, start, parts) i b =
      if c = delimiter ∧ depth = 0 then
        (slice? text start i).map fun piece => .inl (depth, i + 1, parts ++ [piece])
      else some (.inl (depth, start, parts)) := by
  obtain ⟨hopening, hclosing⟩ := isAnyOf_bytes_of_isPlain h hb
  simp [pieces, hopening, hclosing, is_of_mem_encode hascii hb]

/-- What a pass has taken up goes to the piece that it is in. -/
lemma map_prepend (parts : List (List Char)) (part taken : List Char)
    (found : Option (List Char × List (List Char))) :
    ((found.map (prepend taken)).map fun f => parts ++ (part ++ f.1) :: f.2) =
      found.map fun f => parts ++ ((part ++ taken) ++ f.1) :: f.2 := by
  rw [Option.map_map]
  congr 1
  funext f
  simp [prepend]

/-- The pieces of a text, from any place on and with a piece begun before it. By induction
along quotations, which are part of the piece they stand in. -/
lemma run_pieces {delimiter : Char} (hdelimiter : IsPlain delimiter)
    (hascii : delimiter.toNat < 128) (depth : Nat) (part : List Char) (parts : List (List Char))
    (h : part ++ rest <:+ text) :
    (pieces delimiter text).run (encode text) (depth, place text (part ++ rest), parts)
        (place text rest) =
      some ((cut delimiter ⟨depth, none⟩ rest).map fun found =>
        parts ++ (part ++ found.1) :: found.2) := by
  induction rest using quotation_induction generalizing depth part parts with
  | nil =>
      obtain ⟨before, -, hsplit⟩ := splitAt?_place h
      rw [run_nil]
      show (splitAt? (place text (part ++ [])) text).map _ = _
      rw [hsplit]
      rfl
  | unclosed q inner hfree =>
      rw [run_unclosed ((List.suffix_append _ _).trans h) hfree, cut_unclosed hfree]
      rfl
  | closed q inner rest hfree ih =>
      rw [run_quotation ((List.suffix_append _ _).trans h) hfree, cut_of_quotation hfree,
        map_prepend, ← List.append_assoc]
      exact ih depth (part ++ quotation q inner) parts (by rwa [List.append_assoc])
  | other c rest hc ih =>
      have hrest : c :: rest <:+ text := (List.suffix_append _ _).trans h
      have happ : part ++ c :: rest = part ++ [c] ++ rest := by simp
      -- a symbol that ends no piece goes to the current one
      have hkept : ∀ depth', cut delimiter ⟨depth, none⟩ (c :: rest) =
            (cut delimiter ⟨depth', none⟩ rest).map (prepend [c]) →
          (pieces delimiter text).run (encode text) (depth', place text (part ++ c :: rest), parts)
              (place text rest) =
            some ((cut delimiter ⟨depth, none⟩ (c :: rest)).map fun found =>
              parts ++ (part ++ found.1) :: found.2) := by
        intro depth' hcut
        rw [hcut, map_prepend, happ]
        exact ih depth' (part ++ [c]) parts (happ ▸ h)
      by_cases hplain : IsPlain c
      · by_cases hends : c = delimiter ∧ depth = 0
        · obtain ⟨rfl, rfl⟩ := hends
          have hbyte : UInt8.ofNat c.toNat ∈ String.utf8EncodeChar c := by
            simp [encode_ascii hascii]
          have hcut : cut c ⟨0, none⟩ (c :: rest) =
              (cut c ⟨0, none⟩ rest).map fun found => ([], found.1 :: found.2) :=
            cut_delimiter hdelimiter rest
          have hpieces := ih 0 [] (parts ++ [part]) ((List.suffix_cons c rest).trans hrest)
          rw [run_ascii hrest hascii hc, step_pieces hascii hplain hbyte, if_pos ⟨rfl, rfl⟩,
            slice?_place h, ← place_ascii hascii hrest, hcut, Option.map_map]
          refine hpieces.trans (congrArg some ?_)
          congr 1
          funext found
          simp
        · rw [run_plain hrest hc fun i b hb _ => by rw [step_pieces hascii hplain hb, if_neg hends]]
          refine hkept depth (cut_plain hplain ?_ rest)
          by_cases hdepth : depth = 0
          · exact .inr fun heq => hends ⟨heq, hdepth⟩
          · exact .inl (Nat.pos_of_ne_zero hdepth)
      · have hmark := hplain
        simp only [IsPlain, not_not, List.mem_cons, List.not_mem_nil, or_false] at hmark
        rcases hmark with rfl | rfl | rfl | rfl | rfl | rfl
        · rw [run_ascii hrest (by decide) hc]
          exact hkept (depth + 1) (cut_mark hplain rfl rest)
        · rw [run_ascii hrest (by decide) hc]
          exact hkept (depth - 1) (cut_mark hplain rfl rest)
        · rw [run_ascii hrest (by decide) hc]
          exact hkept (depth + 1) (cut_mark hplain rfl rest)
        · rw [run_ascii hrest (by decide) hc]
          exact hkept (depth - 1) (cut_mark hplain rfl rest)
        · exact absurd hc (by decide)
        · exact absurd hc (by decide)

/-- The pieces are those that the pass over the characters finds. -/
theorem splitTopLevel_eq {delimiter : Char} (hdelimiter : IsPlain delimiter)
    (hascii : delimiter.toNat < 128) (text : List Char) :
    splitTopLevel delimiter text = some (Text.splitTopLevel delimiter text) := by
  have h := run_pieces hdelimiter hascii 0 [] [] (List.suffix_refl text)
  rw [List.nil_append, place_self] at h
  rw [splitTopLevel, h, Text.splitTopLevel, cutTopLevel]
  rfl

/-! ### The last property mark -/

/-- The scan for the last `::` outside groups: the depth, and the last position
found so far. -/
def marks (bytes : List UInt8) : Scan (Nat × Option Nat) (Option Nat) where
  step := fun (depth, found) i b =>
    if Symbol.isAnyOf Grouping.any.opening b then some (.inl (depth + 1, found))
    else if Symbol.isAnyOf Grouping.any.closing b then some (.inl (depth - 1, found))
    else if depth == 0 && (encode [':', ':']).isPrefixOf (bytes.drop i) then
      some (.inl (depth, some i))
    else some (.inl (depth, found))
  finish s := some s.2
  abandon s := some s.2

/-- The last position of `::` outside all groups and quotations. -/
def lastTopLevel (text : List Char) : Option (Option Nat) :=
  (marks (encode text)).run (encode text) (0, none) 0

/-- The byte of the property mark. -/
lemma beq_colon {c : Char} {b : UInt8} (h : b ∈ String.utf8EncodeChar c) :
    (58 == b) = (':' == c) := by
  have hbyte : (58 == b) = Symbol.is ':' b := by
    rw [Symbol.is, Bool.eq_iff_iff, beq_iff_eq, beq_iff_eq, eq_comm]
    exact UInt8.toNat_inj.symm
  rw [hbyte, is_of_mem_encode (by decide) h, Bool.eq_iff_iff, Symbol.is_char, beq_iff_eq, eq_comm]

/-- The property mark begins at a place in both views. -/
lemma isPrefixOf_encode (rest : List Char) :
    (encode [':', ':']).isPrefixOf (encode (':' :: rest)) =
      [':', ':'].isPrefixOf (':' :: rest) := by
  cases rest with
  | nil => decide
  | cons c rest =>
      obtain ⟨b, bs, hbs⟩ := List.exists_cons_of_ne_nil (String.utf8EncodeChar_ne_nil (c := c))
      have hb := beq_colon (c := c) (b := b) (by simp [hbs])
      have hcolon : String.utf8EncodeChar ':' = [58] := rfl
      simp [hbs, hb, hcolon, List.isPrefixOf]

/-- A symbol at which no property mark is exposed. -/
lemma lastExposed_of_hidden {pattern : List Char} {s : Nesting} {c : Char}
    (h : (s.exposes .any c && pattern.isPrefixOf (c :: rest)) = false) :
    lastExposed pattern s (c :: rest) =
      (lastExposed pattern (s.step .any c) rest).map (· + 1) := by
  rw [lastExposed_cons, h]
  cases lastExposed pattern (s.step .any c) rest <;> rfl

/-- A colon is a property mark if another one follows it outside all groups. -/
lemma step_colon (h : ':' :: rest <:+ text) (depth : Nat) (found : Option Nat) :
    (marks (encode text)).step (depth, found) (place text (':' :: rest)) (UInt8.ofNat ':'.toNat) =
      if depth = 0 ∧ [':', ':'].isPrefixOf (':' :: rest) = true then
        some (.inl (depth, some (place text (':' :: rest))))
      else some (.inl (depth, found)) := by
  obtain ⟨hopening, hclosing⟩ := isAnyOf_bytes_of_isPlain (show IsPlain ':' by decide)
    (show UInt8.ofNat ':'.toNat ∈ String.utf8EncodeChar ':' by decide)
  simp only [marks, hopening, hclosing, drop_place h, isPrefixOf_encode, Bool.false_eq_true,
    if_false, Bool.and_eq_true, beq_iff_eq]

/-- The last double colon, from any place on and with one found before it. -/
lemma run_marks (depth : Nat) (found : Option Nat) (h : rest <:+ text) :
    (marks (encode text)).run (encode text) (depth, found) (place text rest) =
      some (((lastExposed [':', ':'] ⟨depth, none⟩ rest).map fun i =>
        place text (rest.drop i)).or found) := by
  induction rest using quotation_induction generalizing depth found with
  | nil => exact run_nil text
  | unclosed q inner hfree =>
      rw [run_unclosed h hfree, lastExposed_unclosed hfree]
      rfl
  | closed q inner rest hfree ih =>
      rw [run_quotation h hfree, lastExposed_quotation hfree, Option.map_map,
        ih depth found ((List.suffix_append _ _).trans h)]
      simp only [Function.comp_def, List.drop_length_add_append]
  | other c rest hc ih =>
      have hrest := (List.suffix_cons c rest).trans h
      -- where nothing is found, the position found so far is kept
      have hkept : ∀ depth', lastExposed [':', ':'] ⟨depth, none⟩ (c :: rest) =
            (lastExposed [':', ':'] ⟨depth', none⟩ rest).map (· + 1) →
          (marks (encode text)).run (encode text) (depth', found) (place text rest) =
            some (((lastExposed [':', ':'] ⟨depth, none⟩ (c :: rest)).map fun i =>
              place text ((c :: rest).drop i)).or found) := by
        intro depth' hlast
        rw [hlast, Option.map_map, ih depth' found hrest]
        rfl
      by_cases hplain : IsPlain c
      · have hstep := step_of_isPlain hplain depth
        by_cases hcolon : c = ':'
        · subst hcolon
          rw [run_ascii h (by decide) hc, step_colon h]
          by_cases hhere : depth = 0 ∧ [':', ':'].isPrefixOf (':' :: rest) = true
          · obtain ⟨rfl, hpattern⟩ := hhere
            have hexposed : Nesting.exposes .any ⟨0, none⟩ ':' = true := by decide
            rw [if_pos ⟨rfl, hpattern⟩]
            refine (ih 0 _ hrest).trans (congrArg some ?_)
            rw [lastExposed_cons, hstep, hexposed, hpattern]
            cases lastExposed [':', ':'] ⟨0, none⟩ rest <;> rfl
          · rw [if_neg hhere]
            refine hkept depth ?_
            rw [lastExposed_of_hidden, hstep]
            rw [← Bool.not_eq_true, Bool.and_eq_true]
            rintro ⟨hexposed, hpattern⟩
            simp only [Nesting.exposes, Bool.and_eq_true, beq_iff_eq] at hexposed
            exact hhere ⟨hexposed.1.1.1.1, hpattern⟩
        · rw [run_plain h hc]
          · refine hkept depth ?_
            rw [lastExposed_of_hidden, hstep]
            simp [List.isPrefixOf, Ne.symm hcolon]
          · intro i b hb hbyte
            obtain ⟨hopening, hclosing⟩ := isAnyOf_bytes_of_isPlain hplain hb
            have hno : (encode [':', ':']).isPrefixOf ((encode text).drop i) = false := by
              rw [← List.head?_drop, List.head?_eq_some_iff] at hbyte
              obtain ⟨tail, htail⟩ := hbyte
              have hb' := beq_colon hb
              rw [beq_eq_false_iff_ne.mpr (Ne.symm hcolon)] at hb'
              rw [htail]
              show (58 == b && _) = false
              rw [hb', Bool.false_and]
            simp only [marks, hopening, hclosing, hno, Bool.and_false, Bool.false_eq_true, if_false]
      · have hmark := hplain
        have hhidden : ∀ s : Nesting,
            (s.exposes .any c && [':', ':'].isPrefixOf (c :: rest)) = false := by
          intro s
          rw [exposes_of_not_isPlain hplain, Bool.false_and]
        simp only [IsPlain, not_not, List.mem_cons, List.not_mem_nil, or_false] at hmark
        rcases hmark with rfl | rfl | rfl | rfl | rfl | rfl
        · rw [run_ascii h (by decide) hc]
          exact hkept (depth + 1) (lastExposed_of_hidden (hhidden _))
        · rw [run_ascii h (by decide) hc]
          exact hkept (depth - 1) (lastExposed_of_hidden (hhidden _))
        · rw [run_ascii h (by decide) hc]
          exact hkept (depth + 1) (lastExposed_of_hidden (hhidden _))
        · rw [run_ascii h (by decide) hc]
          exact hkept (depth - 1) (lastExposed_of_hidden (hhidden _))
        · exact absurd hc (by decide)
        · exact absurd hc (by decide)

/-- The position is that of the place which the pass over the characters
finds. -/
theorem lastTopLevel_eq (text : List Char) :
    lastTopLevel text =
      some ((Text.lastTopLevel [':', ':'] text).map fun i => place text (text.drop i)) := by
  have h := run_marks 0 none (List.suffix_refl text)
  rw [place_self, Option.or_none] at h
  exact h

end SelectorPath.Bytewise
