/-
The notation `An+B`.

Written without white space and in small letters, positions are `odd`, `even`, a
number, or a step, the letter `n` and an offset. A step may be left out or be a mere
sign, and an offset may be left out but has a sign otherwise. All numbers fit into 64
bits with a sign.

* `Positions.SpelledNatural`, `Positions.SpelledSigned`, `Positions.SpelledInteger`:
  rows of digits and the numbers they stand for, with a sign or without.
* `Positions.SpelledStep`, `Positions.SpelledOffset`: what stands on either side of
  `n`.
* `Positions.Spelled`: the notation.
* `Positions.ofText?_follows_grammar`: positions are read exactly where the notation
  has some.
-/
import Mathlib.Data.List.Induction
import Mathlib.Data.List.TakeWhile
import Mathlib.Data.Nat.Digits.Defs
import Mathlib.Tactic.Choose
import Mathlib.Tactic.Lemma
import Mathlib.Tactic.SplitIfs
import SelectorPath.Selector.Positions

namespace SelectorPath.Positions

/-! ### The notation -/

/-- A row of digits, the first of which counts most. -/
inductive SpelledNatural : Nat → List Char → Prop
  | digits {ds : List Nat} : ds ≠ [] → (∀ d ∈ ds, d < 10) →
      SpelledNatural (Nat.ofDigits 10 ds.reverse) (ds.map Nat.digitChar)

/-- A sign. -/
inductive SpelledSign : Int → List Char → Prop
  | plus : SpelledSign 1 ['+']
  | minus : SpelledSign (-1) ['-']

/-- A number of 64 bits behind a sign. -/
inductive SpelledSigned : Int → List Char → Prop
  | number {sign : Int} {n : Nat} {mark digits : List Char} : SpelledSign sign mark →
      SpelledNatural n digits → -2 ^ 63 ≤ sign * n → sign * n < 2 ^ 63 →
        SpelledSigned (sign * n) (mark ++ digits)

/-- A number of 64 bits, with a sign or without. -/
inductive SpelledInteger : Int → List Char → Prop
  | unsigned {n : Nat} {digits : List Char} : SpelledNatural n digits → n < 2 ^ 63 →
      SpelledInteger n digits
  | signed {i : Int} {text : List Char} : SpelledSigned i text → SpelledInteger i text

/-- The number before `n`. A sign alone stands for one, and so does nothing. -/
inductive SpelledStep : Int → List Char → Prop
  | nothing : SpelledStep 1 []
  | sign {i : Int} {mark : List Char} : SpelledSign i mark → SpelledStep i mark
  | number {i : Int} {text : List Char} : SpelledInteger i text → SpelledStep i text

/-- The number after `n`, with its sign. Nothing stands for zero. -/
inductive SpelledOffset : Int → List Char → Prop
  | nothing : SpelledOffset 0 []
  | number {i : Int} {text : List Char} : SpelledSigned i text → SpelledOffset i text

/-- Positions in the notation `An+B`. -/
inductive Spelled : Positions → List Char → Prop
  | odd : Spelled .odd "odd".toList
  | even : Spelled .even "even".toList
  | exactly {i : Int} {text : List Char} : SpelledInteger i text → Spelled (.exactly i) text
  | every {step offset : Int} {before behind : List Char} : SpelledStep step before →
      SpelledOffset offset behind → Spelled (.every step offset) (before ++ 'n' :: behind)

/-! ### Rows of digits -/

/-- A further digit is the last one. -/
lemma decimal_concat (digits : List Char) (c : Char) :
    decimal (digits ++ [c]) = 10 * decimal digits + (c.toNat - '0'.toNat) := by
  rw [decimal, List.foldl_append]
  rfl

/-- Digits are summed up from the left, each with its power of ten. -/
lemma decimal_eq_ofDigits {ds : List Nat} (h : ∀ d ∈ ds, d < 10) :
    decimal (ds.map Nat.digitChar) = Nat.ofDigits 10 ds.reverse := by
  induction ds using List.reverseRecOn with
  | nil => rfl
  | append_singleton ds d ih =>
      obtain ⟨hds, hd⟩ := List.forall_mem_append.mp h
      have hvalue : (Nat.digitChar d).toNat - '0'.toNat = d :=
        Nat.toNat_digitChar_sub_48_of_lt_ten (hd d List.mem_cons_self)
      rw [List.map_append, List.map_singleton, decimal_concat, ih hds, hvalue,
        List.reverse_append, List.reverse_singleton, List.singleton_append, Nat.ofDigits_cons,
        Nat.add_comm]

/-- A digit is one of ten. -/
lemma exists_digitChar_of_isDigit {c : Char} (h : c.isDigit = true) :
    ∃ d < 10, Nat.digitChar d = c := by
  have hrange : 48 ≤ c.toNat ∧ c.toNat ≤ 57 := by
    simpa [Char.isDigit, UInt32.le_iff_toNat_le] using h
  have hlt : c.toNat - 48 < 10 := by omega
  refine ⟨c.toNat - 48, hlt, Char.toNat_inj.mp ?_⟩
  rw [Nat.toNat_digitChar_of_lt_ten hlt]
  omega

/-- A row of digits is told by its symbols. -/
lemma spelledNatural_iff {n : Nat} {text : List Char} :
    SpelledNatural n text ↔ text ≠ [] ∧ (∀ c ∈ text, c.isDigit = true) ∧ decimal text = n := by
  constructor
  · rintro ⟨hne, hds⟩
    refine ⟨by simpa using hne, ?_, decimal_eq_ofDigits hds⟩
    intro c hc
    obtain ⟨d, hd, rfl⟩ := List.mem_map.mp hc
    rw [Nat.isDigit_digitChar, decide_eq_true (hds d hd)]
  · rintro ⟨hne, hdigits, rfl⟩
    choose! value hvalue using fun c (hc : c ∈ text) => exists_digitChar_of_isDigit (hdigits c hc)
    have htext : (text.map value).map Nat.digitChar = text := by
      rw [List.map_map]
      exact (List.map_congr_left fun c hc => (hvalue c hc).2).trans (List.map_id' text)
    have hds : ∀ d ∈ text.map value, d < 10 :=
      List.forall_mem_map.mpr fun c hc => (hvalue c hc).1
    have hspelled := SpelledNatural.digits (by simpa using hne) hds
    rwa [← decimal_eq_ofDigits hds, htext] at hspelled

/-! ### Numbers with a sign -/

/-- A symbol of a number. -/
def IsNumberSymbol (c : Char) : Prop := c.isDigit = true ∨ c = '+' ∨ c = '-'

lemma SpelledNatural.symbols {n : Nat} {text : List Char} (h : SpelledNatural n text) :
    ∀ c ∈ text, IsNumberSymbol c :=
  fun c hc => .inl ((spelledNatural_iff.mp h).2.1 c hc)

lemma SpelledSign.symbols {i : Int} {mark : List Char} (h : SpelledSign i mark) :
    ∀ c ∈ mark, IsNumberSymbol c := by
  cases h with
  | plus | minus => simp [IsNumberSymbol]

/-- Numbers are spelled with digits and signs, so that the letter between step and offset
stands out. -/
lemma SpelledSigned.symbols {i : Int} {text : List Char} (h : SpelledSigned i text) :
    ∀ c ∈ text, IsNumberSymbol c := by
  obtain ⟨hsign, hdigits, -, -⟩ := h
  exact List.forall_mem_append.mpr ⟨hsign.symbols, hdigits.symbols⟩

lemma SpelledInteger.symbols {i : Int} {text : List Char} (h : SpelledInteger i text) :
    ∀ c ∈ text, IsNumberSymbol c := by
  cases h with
  | unsigned hdigits => exact hdigits.symbols
  | signed hsigned => exact hsigned.symbols

lemma SpelledStep.symbols {i : Int} {text : List Char} (h : SpelledStep i text) :
    ∀ c ∈ text, IsNumberSymbol c := by
  cases h with
  | nothing => simp
  | sign hsign => exact hsign.symbols
  | number hnumber => exact hnumber.symbols

lemma SpelledOffset.symbols {i : Int} {text : List Char} (h : SpelledOffset i text) :
    ∀ c ∈ text, IsNumberSymbol c := by
  cases h with
  | nothing => simp
  | number hnumber => exact hnumber.symbols

/-- The sign in front of a row of digits is told apart from them. -/
lemma SpelledSign.splitSign_append {sign : Int} {mark : List Char} (h : SpelledSign sign mark)
    (digits : List Char) : splitSign (mark ++ digits) = (sign, digits) := by
  cases h with
  | plus | minus => rfl

/-- No sign stands in front of a row of digits. -/
lemma SpelledNatural.splitSign_eq {n : Nat} {digits : List Char} (h : SpelledNatural n digits) :
    splitSign digits = (1, digits) := by
  have hdigits := (spelledNatural_iff.mp h).2.1
  rw [splitSign.eq_def]
  split
  · exact absurd (hdigits '+' List.mem_cons_self) (by decide)
  · exact absurd (hdigits '-' List.mem_cons_self) (by decide)
  · rfl

/-- A number is read where digits stand behind its sign and it fits into 64 bits. -/
lemma integer?_of_splitSign {text digits : List Char} {sign i : Int}
    (h : splitSign text = (sign, digits)) :
    integer? text = some i ↔
      ∃ n : Nat, SpelledNatural n digits ∧ -2 ^ 63 ≤ sign * n ∧ sign * n < 2 ^ 63 ∧
        sign * n = i := by
  have hword : ∀ j : Int, isWord j = true ↔ -2 ^ 63 ≤ j ∧ j < 2 ^ 63 := by
    intro j
    simp only [isWord, Bool.and_eq_true, decide_eq_true_eq]
    omega
  simp only [spelledNatural_iff, integer?, h]
  constructor
  · intro hsome
    split_ifs at hsome with hall
    simp only [Bool.and_eq_true, Bool.not_eq_true', List.isEmpty_eq_false_iff,
      List.all_eq_true] at hall
    obtain ⟨⟨hne, hdigits⟩, hrange⟩ := hall
    obtain ⟨hlow, hhigh⟩ := (hword _).mp hrange
    exact ⟨decimal digits, ⟨hne, hdigits, rfl⟩, hlow, hhigh, Option.some.inj hsome⟩
  · rintro ⟨_, ⟨hne, hdigits, rfl⟩, hlow, hhigh, rfl⟩
    rw [if_pos]
    simp only [Bool.and_eq_true, Bool.not_eq_true', List.isEmpty_eq_false_iff, List.all_eq_true]
    exact ⟨⟨hne, hdigits⟩, (hword _).mpr ⟨hlow, hhigh⟩⟩

/-- **Numbers are read exactly where they are spelled.** -/
theorem integer?_eq_some_iff {text : List Char} {i : Int} :
    integer? text = some i ↔ SpelledInteger i text := by
  constructor
  · intro h
    -- with a sign in front, both ends of the range have to be checked
    have hsigned : ∀ {sign : Int} {mark digits : List Char}, SpelledSign sign mark →
        text = mark ++ digits → SpelledInteger i text := by
      rintro sign mark digits hsign rfl
      obtain ⟨n, hdigits, hlow, hhigh, rfl⟩ :=
        (integer?_of_splitSign (hsign.splitSign_append digits)).mp h
      exact .signed (.number hsign hdigits hlow hhigh)
    -- a number without a sign is not negative, so that one end of the range is enough
    fun_cases splitSign text with
    | case1 digits => exact hsigned .plus rfl
    | case2 digits => exact hsigned .minus rfl
    | case3 _ hplus hminus =>
        obtain ⟨n, hdigits, -, hhigh, rfl⟩ :=
          (integer?_of_splitSign (splitSign.eq_3 text hplus hminus)).mp h
        rw [Int.one_mul] at hhigh ⊢
        exact .unsigned hdigits (by exact_mod_cast hhigh)
  · intro h
    cases h with
    | @unsigned n _ hdigits hhigh =>
        refine (integer?_of_splitSign hdigits.splitSign_eq).mpr ⟨n, hdigits, ?_, ?_, ?_⟩ <;> omega
    | signed hsigned =>
        obtain @⟨sign, n, mark, digits, hsign, hdigits, hlow, hhigh⟩ := hsigned
        exact (integer?_of_splitSign (hsign.splitSign_append digits)).mpr
          ⟨n, hdigits, hlow, hhigh, rfl⟩

/-- A sign alone is no number. -/
lemma integer?_of_sign {sign : Int} {mark : List Char} (h : SpelledSign sign mark) :
    integer? mark = none := by
  cases h with
  | plus | minus => rfl

/-! ### Steps and offsets -/

/-- **Steps are read exactly where they are spelled.** -/
theorem step?_eq_some_iff {text : List Char} {i : Int} :
    step? text = some i ↔ SpelledStep i text := by
  rw [step?]
  constructor
  · intro h
    split_ifs at h with hone hminus
    · obtain rfl := Option.some.inj h
      rcases hone with rfl | rfl
      · exact .nothing
      · exact .sign .plus
    · obtain rfl := Option.some.inj h
      exact hminus ▸ .sign .minus
    · exact .number (integer?_eq_some_iff.mp h)
  · intro h
    cases h with
    | nothing => rfl
    | sign hsign =>
        cases hsign with
        | plus | minus => rfl
    | number hnumber =>
        -- a sign alone is no number, so the number is neither of the signs
        have hread := integer?_eq_some_iff.mpr hnumber
        have hne : ∀ {mark : List Char}, integer? mark = none → text ≠ mark := by
          rintro _ hnone rfl
          simp [hnone] at hread
        rw [if_neg (not_or.mpr ⟨hne rfl, hne (integer?_of_sign .plus)⟩),
          if_neg (hne (integer?_of_sign .minus)), hread]

/-- **Offsets are read exactly where they are spelled.** -/
theorem offset?_eq_some_iff {text : List Char} {i : Int} :
    offset? text = some i ↔ SpelledOffset i text := by
  constructor
  · intro h
    cases text with
    | nil =>
        obtain rfl := Option.some.inj h
        exact .nothing
    | cons c rest =>
        rw [offset?] at h
        split_ifs at h with hsign
        cases integer?_eq_some_iff.mp h with
        | signed hsigned => exact .number hsigned
        | unsigned hdigits =>
            have hdigit := (spelledNatural_iff.mp hdigits).2.1 c List.mem_cons_self
            rcases hsign with rfl | rfl <;> exact absurd hdigit (by decide)
  · intro h
    cases h with
    | nothing => rfl
    | number hsigned =>
        have hread := integer?_eq_some_iff.mpr (.signed hsigned)
        obtain ⟨hsign, -, -, -⟩ := hsigned
        cases hsign with
        | plus | minus => simpa [offset?] using hread

/-! ### The whole notation -/

/-- Neither `n` nor a letter of a keyword is a symbol of a number. -/
lemma not_isNumberSymbol {c : Char} (h : c ∈ "oddeven".toList) : ¬ IsNumberSymbol c := by
  revert c
  simp [IsNumberSymbol]

/-- The letter is none of these symbols. -/
lemma ne_n_of_symbols {text : List Char} (h : ∀ c ∈ text, IsNumberSymbol c) :
    ∀ c ∈ text, (c != 'n') = true := by
  intro c hc
  rw [bne_iff_ne]
  rintro rfl
  exact not_isNumberSymbol (by decide) (h 'n' hc)

/-- The letters of a keyword apart from `n` do not stand in other notation. -/
lemma Spelled.ne_keyword {positions : Positions} {text : List Char} (h : Spelled positions text)
    (hodd : positions ≠ .odd) (heven : positions ≠ .even) :
    text ≠ ['o', 'd', 'd'] ∧ text ≠ ['e', 'v', 'e', 'n'] := by
  have hsymbols : ∀ c ∈ text, IsNumberSymbol c ∨ c = 'n' := by
    cases h with
    | odd => exact absurd rfl hodd
    | even => exact absurd rfl heven
    | exactly hnumber => exact fun c hc => .inl (hnumber.symbols c hc)
    | every hstep hoffset =>
        intro c hc
        rcases List.mem_append.mp hc with hc | hc
        · exact .inl (hstep.symbols c hc)
        · rcases List.mem_cons.mp hc with rfl | hc
          · exact .inr rfl
          · exact .inl (hoffset.symbols c hc)
  constructor
  · rintro rfl
    exact (hsymbols 'o' (by decide)).elim (not_isNumberSymbol (by decide)) (by decide)
  · rintro rfl
    exact (hsymbols 'e' (by decide)).elim (not_isNumberSymbol (by decide)) (by decide)

/-- The first `n` parts the step from the offset. -/
lemma split_at_n {before behind : List Char} (h : ∀ c ∈ before, (c != 'n') = true) :
    (before ++ 'n' :: behind).takeWhile (· != 'n') = before ∧
      (before ++ 'n' :: behind).dropWhile (· != 'n') = 'n' :: behind := by
  constructor
  · rw [List.takeWhile_append_of_pos h, List.takeWhile_cons_of_neg (by decide), List.append_nil]
  · rw [List.dropWhile_append_of_pos h, List.dropWhile_cons_of_neg (by decide)]

/-- **Normalized positions are read exactly where they are spelled.** -/
theorem ofNormalized?_eq_some_iff {text : List Char} {positions : Positions} :
    ofNormalized? text = some positions ↔ Spelled positions text := by
  constructor
  · intro h
    rw [ofNormalized?] at h
    split_ifs at h with hodd heven
    · obtain rfl := Option.some.inj h
      exact hodd ▸ .odd
    · obtain rfl := Option.some.inj h
      exact heven ▸ .even
    · have hhead := List.head?_dropWhile_not (· != 'n') text
      have hparts := List.takeWhile_append_dropWhile (p := (· != 'n')) (l := text)
      split at h
      · obtain ⟨i, hi, rfl⟩ := Option.map_eq_some_iff.mp h
        exact .exactly (integer?_eq_some_iff.mp hi)
      · next c behind hdrop =>
          rw [hdrop] at hhead hparts
          obtain rfl : c = 'n' := by simpa using hhead
          obtain ⟨step, hstep, h⟩ := Option.bind_eq_some_iff.mp h
          obtain ⟨offset, hoffset, h⟩ := Option.bind_eq_some_iff.mp h
          obtain rfl := Option.some.inj h
          rw [← hparts]
          exact .every (step?_eq_some_iff.mp hstep) (offset?_eq_some_iff.mp hoffset)
  · intro h
    cases h with
    | odd | even => rfl
    | exactly hnumber =>
        obtain ⟨hodd, heven⟩ := (Spelled.exactly hnumber).ne_keyword (by simp) (by simp)
        -- numbers and signs have no `n` in them, and are no keywords
        have hdrop : text.dropWhile (· != 'n') = [] :=
          List.dropWhile_eq_nil_iff.mpr (ne_n_of_symbols hnumber.symbols)
        rw [ofNormalized?, if_neg hodd, if_neg heven, hdrop]
        exact Option.map_eq_some_iff.mpr ⟨_, integer?_eq_some_iff.mpr hnumber, rfl⟩
    | every hstep hoffset =>
        obtain ⟨hodd, heven⟩ := (Spelled.every hstep hoffset).ne_keyword (by simp) (by simp)
        obtain ⟨htake, hdrop⟩ := split_at_n (ne_n_of_symbols hstep.symbols)
        rw [ofNormalized?, if_neg hodd, if_neg heven, hdrop, htake]
        exact Option.bind_eq_some_iff.mpr ⟨_, step?_eq_some_iff.mpr hstep,
          Option.bind_eq_some_iff.mpr ⟨_, offset?_eq_some_iff.mpr hoffset, rfl⟩⟩

/-- **The reader follows the notation.** A text stands for positions exactly if it
spells them once white space is left out and letters are made small. All other texts
stand for no positions, in particular those with a number beyond 64 bits. -/
theorem ofText?_follows_grammar (text : String) :
    let small := (text.toList.filter fun c => !Text.isSpace c).map Char.toLower
    (∀ positions, ofText? text = some positions ↔ Spelled positions small) ∧
      (ofText? text = none ↔ ∀ positions, ¬ Spelled positions small) := by
  intro small
  have hread : ∀ positions, ofText? text = some positions ↔ Spelled positions small :=
    fun _ => ofNormalized?_eq_some_iff
  refine ⟨hread, ?_⟩
  rw [Option.eq_none_iff_forall_ne_some]
  exact forall_congr' fun positions => not_congr (hread positions)

/-- The least step there is, and a number that is one too large. -/
example :
    ofText? "-9223372036854775 808 N+1" = some (.every (-9223372036854775808) 1) ∧
      ofText? "9223372036854775808" = none := by
  decide +kernel

end SelectorPath.Positions
