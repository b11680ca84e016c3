/-
Splitting a text and searching it agree on what is top level.

A text is split at the delimiters at top level, and a pattern is found at the last
position at top level where it begins. Both are said here of the byte positions that
one pass from left to right comes to (`Text.Reaches`).

* `Text.IsSplit`: the pieces of a text between its delimiters at top level, with the
  positions of these delimiters.
* `Text.isSplit_of_splitTopLevel`: what splitting finds.
* `Text.splitTopLevel_append_delimiter`: a delimiter behind a text that leaves nothing
  open keeps the pieces of two texts apart.
* `Text.split_and_search_agree`: the main statement.
-/
import SelectorPath.Proofs.Bytes.Images

namespace SelectorPath.Text

/-! ### Delimiters and their bytes -/

/-- The byte of an ASCII character. -/
def asciiByte (c : Char) : UInt8 := UInt8.ofNat c.toNat

section

variable {delimiter : Char}

/-- A delimiter of ASCII is one byte. -/
lemma is_byte_iff (hascii : delimiter.toNat < 128) {b : UInt8} :
    Symbol.is delimiter b = true ↔ b = asciiByte delimiter := by
  have hcode : (asciiByte delimiter).toNat = delimiter.toNat :=
    UInt8.toNat_ofNat.trans (Nat.mod_eq_of_lt (by omega))
  rw [Symbol.is, beq_iff_eq, ← hcode]
  exact UInt8.toNat_inj

/-- A delimiter does not move the pass. -/
lemma isMark_of_is (hplain : IsPlain delimiter) {b : UInt8} (h : Symbol.is delimiter b = true) :
    Symbol.isMark b = false := by
  have hany : Symbol.isAnyOf [delimiter] b = true := by simp [Symbol.isAnyOf, h]
  refine not_isAnyOf_of_isAnyOf (fun c hc => ?_) hany
  rw [List.mem_singleton.mp hc]
  exact hplain

end

/-! ### Positions in increasing order -/

/-- The last of increasing positions is the greatest. -/
lemma getLast?_eq_some_iff_isGreatest {cuts : List Nat} (h : cuts.Pairwise (· < ·)) {i : Nat} :
    cuts.getLast? = some i ↔ IsGreatest {j | j ∈ cuts} i := by
  have hlast : ∀ k, cuts.getLast? = some k → IsGreatest {j | j ∈ cuts} k := by
    intro k hk
    obtain ⟨before, rfl⟩ := List.getLast?_eq_some_iff.mp hk
    refine ⟨by simp, fun j hj => ?_⟩
    rcases List.mem_append.mp hj with hj | hj
    · exact Nat.le_of_lt ((List.pairwise_append.mp h).2.2 j hj k (by simp))
    · exact Nat.le_of_eq (List.mem_singleton.mp hj)
  refine ⟨hlast i, fun hgreatest => ?_⟩
  cases hk : cuts.getLast? with
  | none =>
      rw [List.getLast?_eq_none_iff] at hk
      simp [hk, IsGreatest] at hgreatest
  | some k => rw [(hlast k hk).unique hgreatest]

/-- The last piece stands behind the last position. -/
lemma getLast?_piecesBetween {α : Type} (text : List α) (start : Nat) (cuts : List Nat) (i : Nat) :
    (piecesBetween text start (cuts ++ [i])).getLast? = some (text.drop (i + 1)) := by
  induction cuts generalizing start with
  | nil => rfl
  | cons j cuts ih =>
      rw [List.cons_append, piecesBetween, List.getLast?_cons, ih]
      rfl

/-! ### What splitting finds -/

/-- The pieces of a text between its delimiters at top level, and the positions of
these delimiters. The last of them is what a search for the delimiter finds. -/
structure IsSplit (delimiter : Char) (text : List Char) (parts : List (List Char))
    (cuts : List Nat) : Prop where
  increasing : cuts.Pairwise (· < ·)
  mem_cuts : ∀ i, i ∈ cuts ↔
    IsTopLevel (encode text) i ∧ (encode text)[i]? = some (asciiByte delimiter)
  pieces : parts.map encode = piecesBetween (encode text) 0 cuts
  joined : [delimiter].intercalate parts = text
  length_parts : parts.length = cuts.length + 1
  search_none : lastTopLevel (encode [delimiter]) (encode text) = none ↔ parts.length = 1
  search_some : ∀ i, lastTopLevel (encode [delimiter]) (encode text) = some i →
    cuts.getLast? = some i ∧ ∃ last ∈ parts.getLast?, i + 1 + size last = size text

section Split

variable {delimiter : Char} (hascii : delimiter.toNat < 128) (hplain : IsPlain delimiter)
  {text : List Char}

include hascii hplain

/-- A search for the delimiter finds the last position where the text is cut. -/
lemma lastTopLevel_delimiter {cuts : List Nat} (hincreasing : cuts.Pairwise (· < ·))
    (hcuts : ∀ i, i ∈ cuts ↔
      IsTopLevel (encode text) i ∧ (encode text)[i]? = some (asciiByte delimiter)) :
    lastTopLevel (encode [delimiter]) (encode text) = cuts.getLast? := by
  have hpattern : encode [delimiter] = [asciiByte delimiter] := by
    rw [encode_cons, encode_ascii hascii]
    rfl
  have hset : {i | IsTopLevel (encode text) i ∧ [asciiByte delimiter] <+: (encode text).drop i} =
      {i | i ∈ cuts} := by
    ext i
    rw [Set.mem_ofPred_eq, Set.mem_ofPred_eq, hcuts, List.singleton_prefix_iff_head?_eq_some,
      List.head?_drop]
  have hmark := isMark_of_is hplain ((is_byte_iff hascii).mpr rfl)
  refine Option.ext fun i => ?_
  rw [hpattern, lastTopLevel_eq_some_iff rfl hmark, hset,
    getLast?_eq_some_iff_isGreatest hincreasing]

/-- The pieces of a text stand between its cuts, which are increasing places. -/
theorem isSplit_of_splitTopLevel {parts : List (List Char)}
    (h : splitTopLevel delimiter text = some parts) :
    ∃ cuts, IsSplit delimiter text parts cuts := by
  obtain ⟨⟨piece, more⟩, hcut, heq⟩ := Option.map_eq_some_iff.mp h
  obtain rfl : piece :: more = parts := heq
  -- the cuts are found in the bytes, where the positions are counted
  have hbytes : cut delimiter .top (encode text) = some (encode piece, more.map encode) := by
    rw [cut_encode hascii, show cut delimiter .top text = some (piece, more) from hcut]
    rfl
  obtain ⟨cuts, hincreasing, hmem, hpieces⟩ := exists_cuts hbytes
  have hcuts : ∀ i, i ∈ cuts ↔
      IsTopLevel (encode text) i ∧ (encode text)[i]? = some (asciiByte delimiter) := by
    intro i
    rw [hmem, isCut_top_iff fun b hb => isMark_of_is hplain hb]
    simp only [is_byte_iff hascii, exists_eq_right]
  have hparts : (piece :: more).map encode = piecesBetween (encode text) 0 cuts := hpieces
  have hlength : (piece :: more).length = cuts.length + 1 := by
    rw [← List.length_map encode, hparts, length_piecesBetween]
  have hlast := lastTopLevel_delimiter hascii hplain hincreasing hcuts
  refine ⟨cuts, hincreasing, hcuts, hparts, intercalate_of_cut hcut, hlength, ?_, fun i hi => ?_⟩
  · rw [hlast, List.getLast?_eq_none_iff, ← List.length_eq_zero_iff]
    omega
  · rw [hlast] at hi
    obtain ⟨before, rfl⟩ := List.getLast?_eq_some_iff.mp hi
    obtain ⟨last, hlast', hbehind⟩ : ∃ last, (piece :: more).getLast? = some last ∧
        encode last = (encode text).drop (i + 1) := by
      rw [← Option.map_eq_some_iff, ← List.getLast?_map, hparts, getLast?_piecesBetween]
    have hlt := ((hcuts i).mp (by simp)).1.1
    refine ⟨hi, last, hlast', ?_⟩
    rw [length_encode] at hlt
    rw [← length_encode last, hbehind, List.length_drop, length_encode]
    omega

omit hascii in
/-- A delimiter behind a text that leaves nothing open keeps the pieces apart. -/
theorem splitTopLevel_append_delimiter (hclosed : Nesting.top.after text = .top)
    (more : List Char) :
    splitTopLevel delimiter (text ++ delimiter :: more) = (do
      let parts ← splitTopLevel delimiter text
      let others ← splitTopLevel delimiter more
      return parts ++ others) := by
  have hended : (Nesting.top.past .any text).quote = none := congrArg Nesting.quote hclosed
  obtain ⟨⟨piece, others⟩, hfound⟩ : ∃ found, cut delimiter .top text = some found := by
    rw [← Option.ne_none_iff_exists', ne_eq, cut_eq_none_iff]
    exact not_not.mpr hended
  rw [splitTopLevel, cutTopLevel, cut_append hfound, hclosed, cut_delimiter hplain, splitTopLevel,
    cutTopLevel, hfound, splitTopLevel, cutTopLevel]
  cases cut delimiter .top more with
  | none => rfl
  | some next => simp [runOn_delimiter]

end Split

/-- What is found in a second text is the last place in both, if the first one leaves
nothing open. -/
lemma lastTopLevel_append {α : Type} [Symbol α] [BEq α] [LawfulBEq α] {left right pattern : List α}
    {b : α} (hb : b ∈ pattern.head?) (hmark : Symbol.isMark b = false)
    (hleft : Reaches left left.length 0) {i : Nat} (h : lastTopLevel pattern right = some i) :
    lastTopLevel pattern (left ++ right) = some (left.length + i) := by
  rw [lastTopLevel_eq_some_iff hb hmark] at h ⊢
  obtain ⟨⟨htop, hpattern⟩, hgreatest⟩ := h
  refine ⟨⟨(isTopLevel_append_iff hleft).mpr (.inr ⟨i, rfl, htop⟩), ?_⟩, ?_⟩
  · rwa [List.drop_length_add_append]
  · rintro k ⟨hk, hpattern'⟩
    rcases (isTopLevel_append_iff hleft).mp hk with ⟨hlt, -⟩ | ⟨j, rfl, hj⟩
    · omega
    · rw [List.drop_length_add_append] at hpattern'
      exact Nat.add_le_add_left (hgreatest ⟨hj, hpattern'⟩) _

/-- Splitting a text fails exactly if it leaves a quotation open, and otherwise gives
what stands between the delimiters at top level. A search gives the last position at
top level where the pattern begins. A text that leaves nothing open can be read apart
from what follows it. -/
theorem split_and_search_agree {delimiter : Char} (hascii : delimiter.toNat < 128)
    (hplain : IsPlain delimiter) (text : List Char) :
    (splitTopLevel delimiter text = none ↔ MeetsOpenQuote (encode text)) ∧
      (¬ MeetsOpenQuote (encode text) → ∃ parts cuts,
        splitTopLevel delimiter text = some parts ∧ IsSplit delimiter text parts cuts) ∧
      (∀ (pattern : List UInt8), ∀ b ∈ pattern.head?, Symbol.isMark b = false →
        (∀ i, lastTopLevel pattern (encode text) = some i ↔
          IsGreatest {i | IsTopLevel (encode text) i ∧ pattern <+: (encode text).drop i} i) ∧
        (lastTopLevel pattern (encode text) = none ↔
          ∀ i, IsTopLevel (encode text) i → ¬ pattern <+: (encode text).drop i)) ∧
      (Reaches (encode text) (size text) 0 → ∀ more : List Char,
        (∀ i, IsTopLevel (encode (text ++ more)) i ↔
          IsTopLevel (encode text) i ∨ ∃ j, i = size text + j ∧ IsTopLevel (encode more) j) ∧
        splitTopLevel delimiter (text ++ delimiter :: more) = (do
          let parts ← splitTopLevel delimiter text
          let others ← splitTopLevel delimiter more
          return parts ++ others) ∧
        (∀ (pattern : List UInt8), ∀ b ∈ pattern.head?, Symbol.isMark b = false →
          ∀ i, lastTopLevel pattern (encode more) = some i →
            lastTopLevel pattern (encode (text ++ more)) = some (size text + i))) := by
  have hnone : splitTopLevel delimiter text = none ↔ MeetsOpenQuote (encode text) := by
    rw [meetsOpenQuote_iff, past_encode hasAsciiMarks_any, splitTopLevel, Option.map_eq_none_iff,
      cutTopLevel, cut_eq_none_iff]
  refine ⟨hnone, fun hclosed => ?_, fun pattern b hb hmark => ?_, fun hreach more => ?_⟩
  · obtain ⟨parts, hparts⟩ := Option.ne_none_iff_exists'.mp (mt hnone.mp hclosed)
    obtain ⟨cuts, hcuts⟩ := isSplit_of_splitTopLevel hascii hplain hparts
    exact ⟨parts, cuts, hparts, hcuts⟩
  · exact ⟨fun i => lastTopLevel_eq_some_iff hb hmark, lastTopLevel_eq_none_iff hb hmark⟩
  · have htop : Nesting.top.past .any text = .top := by
      rw [← past_encode hasAsciiMarks_any, ← stateAt_length]
      exact (reaches_iff.mp hreach).2
    refine ⟨fun i => ?_, splitTopLevel_append_delimiter hplain htop more, ?_⟩
    · rw [encode_append, isTopLevel_append_iff hreach, length_encode]
    · intro pattern b hb hmark i hi
      rw [encode_append]
      exact lastTopLevel_append hb hmark hreach hi

/-- A closing bracket without partner, and marks beyond the reach of both scans. -/
theorem split_and_search_agree_unbalanced :
    ¬ MeetsOpenQuote (encode "a),\"é,(\"".toList) ∧
      (∃ parts cuts, splitTopLevel ',' "a),\"é,(\"".toList = some parts ∧
        IsSplit ',' "a),\"é,(\"".toList parts cuts) ∧
      IsGreatest {i | IsTopLevel (encode "a),\"é,(\"".toList) i ∧
        encode [','] <+: (encode "a),\"é,(\"".toList).drop i} 2 ∧
      Reaches (encode "a),\"é,(\"".toList) (size "a),\"é,(\"".toList) 0 ∧
      splitTopLevel ',' ("a),\"é,(\"".toList ++ ',' :: "[b,c".toList) =
        some ["a)".toList, "\"é,(\"".toList, "[b,c".toList] := by
  obtain ⟨hnone, hsplit, hsearch, hjoin⟩ := @split_and_search_agree ',' (by decide) (by decide)
    "a),\"é,(\"".toList
  have hclosed := mt hnone.mpr (by decide)
  have hreach : Reaches (encode "a),\"é,(\"".toList) (size "a),\"é,(\"".toList) 0 :=
    reaches_iff.mpr ⟨Nat.le_refl _, by decide⟩
  refine ⟨hclosed, hsplit hclosed, ?_, hreach, ?_⟩
  · exact ((hsearch (encode [',']) (asciiByte ',') rfl (by decide)).1 2).mp (by decide)
  · rw [(hjoin hreach _).2.1]
    decide

end SelectorPath.Text
