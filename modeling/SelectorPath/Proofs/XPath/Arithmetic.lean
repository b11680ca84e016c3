/-
Conditions on positions, read back from their text.

A condition on the position of a node is written with whole numbers,
`position()`, `last()`, the operators `+`, `-` and `mod`, comparisons and `and`.
Such a text is read here by the rules for these operators: `mod` binds more
closely than `+` and `-`, these more closely than a comparison, and a comparison
more closely than `and`; operators of one kind are carried out from the left to
the right. A word is what stands between two spaces outside of parentheses.

* `XPath.Place`: a position among a number of candidates.
* `Number.value?`, `Condition.truth?`: what numbers and conditions come to at a
  place, if they are about nothing else.
* `XPath.number?`, `XPath.evaluate?`: what a text comes to at a place.
* `XPath.evaluate?_render`: a condition that is written comes to the same when
  it is read.
-/
import SelectorPath.Proofs.Text.Groups
import SelectorPath.Proofs.XPath.Solid

namespace SelectorPath.XPath

open Text

/-! ### Numbers and conditions at a place -/

/-- A position among a number of candidates, both counted from one on. -/
structure Place where
  /-- The position. -/
  position : Int
  /-- The number of candidates. -/
  size : Int
  one_le_position : 1 ≤ position
  position_le_size : position ≤ size

/-- The remainder of a division that rounds toward zero, which has the sign of
the number divided. -/
def remainder? (a b : Int) : Option Int := if b = 0 then none else some (a.tmod b)

/-- The value of a number at a place, if it is about the place only. -/
def Number.value? (place : Place) : Number → Option Int
  | .position => some place.position
  | .last => some place.size
  | .descendants => none
  | .integer i => some i
  | .sum a b => do return (← a.value? place) + (← b.value? place)
  | .difference a b => do return (← a.value? place) - (← b.value? place)
  | .remainder a b => do remainder? (← a.value? place) (← b.value? place)

/-- The relation between two numbers. -/
def Relation.holds : Relation → Int → Int → Bool
  | .equal, a, b => a = b
  | .atLeast, a, b => a ≥ b
  | .atMost, a, b => a ≤ b
  | .above, a, b => a > b

/-- The truth of a condition at a place, if it is about the place only. -/
def Condition.truth? (place : Place) : Condition → Option Bool
  | .compare relation a b => do return relation.holds (← a.value? place) (← b.value? place)
  | .conjunction a b => do return (← a.truth? place) && (← b.truth? place)
  | _ => none

section Values

variable {place : Place} {a b : Number} {x y : Int}

/-- The remainder has the sign of the dividend. -/
lemma Number.value?_remainder (ha : a.value? place = some x) (hb : b.value? place = some y)
    (hy : y ≠ 0) : (Number.remainder a b).value? place = some (x.tmod y) := by
  simp [value?, ha, hb, remainder?, hy]

lemma Condition.truth?_compare (relation : Relation) (ha : a.value? place = some x)
    (hb : b.value? place = some y) :
    (Condition.compare relation a b).truth? place = some (relation.holds x y) := by
  simp [truth?, ha, hb]

lemma Condition.truth?_conjunction {c d : Condition} {s t : Bool} (hc : c.truth? place = some s)
    (hd : d.truth? place = some t) :
    (Condition.conjunction c d).truth? place = some (s && t) := by
  simp [truth?, hc, hd]

end Values

/-! ### Reading a text -/

/-- The number that a row of digits stands for. -/
def natural? (digits : List Char) : Option Nat :=
  if digits ≠ [] ∧ digits.all Char.isDigit then some (Nat.ofDigitChars 10 digits 0) else none

/-- The number that a row of digits stands for, with or without a minus sign. -/
def integer? (text : List Char) : Option Int :=
  if text.head? = some '-' then (natural? text.tail).map fun n : Nat => -(n : Int)
  else (natural? text).map fun n : Nat => (n : Int)

/-- The value of a word: a whole number, one of the two functions, or a text in
parentheses, which is read by `nested`. -/
def operand? (place : Place) (nested : List Char → Option Int) (word : List Char) : Option Int :=
  if word = "position()".toList then some place.position
  else if word = "last()".toList then some place.size
  else if word.head? = some '(' then
    match readParenthesized word.tail with
    | some (body, []) => nested body
    | _ => none
  else integer? word

/-- The value of a row of words after a first factor: `pending` is what is still
to be done with the factors once they are multiplied out. -/
def chain? (operand : List Char → Option Int) (pending : Int → Int) (factor : Int) :
    List (List Char) → Option Int
  | [] => some (pending factor)
  | [_] => none
  | sign :: word :: words => do
    let value ← operand word
    if sign = "mod".toList then do
      chain? operand pending (← remainder? factor value) words
    else if sign = "+".toList then chain? operand (pending factor + ·) value words
    else if sign = "-".toList then chain? operand (pending factor - ·) value words
    else none

/-- The value of a row of words. -/
def row? (operand : List Char → Option Int) (pending : Int → Int) :
    List (List Char) → Option Int
  | [] => none
  | word :: words => do chain? operand pending (← operand word) words

/-- The number that a text stands for at a place. -/
def number? (place : Place) (text : List Char) : Option Int := do
  let words ← splitTopLevel ' ' text
  row? (operand? place fun body =>
    if _h : body.length < text.length then number? place body else none) id words
termination_by text.length

/-- The value of a word at a place. -/
def word? (place : Place) : List Char → Option Int := operand? place (number? place)

/-- The relation that a word stands for. -/
def Relation.ofWord? (word : List Char) : Option Relation :=
  [Relation.equal, .atLeast, .atMost, .above].find? fun r => r.render.toList == word

/-- The truth of a comparison at a place. -/
def comparison? (place : Place) (words : List (List Char)) : Option Bool := do
  let isNumber := fun word => (Relation.ofWord? word).isNone
  let left ← row? (word? place) id (words.takeWhile isNumber)
  match words.dropWhile isNumber with
  | [] => none
  | sign :: words => do
    let relation ← Relation.ofWord? sign
    let right ← row? (word? place) id words
    return relation.holds left right

/-- The truth of comparisons that are joined by `and`. -/
def judgement? (place : Place) (words : List (List Char)) : Option Bool := do
  let truths ← (words.splitOn "and".toList).mapM (comparison? place)
  return truths.all id

/-- The truth of a text at a place. -/
def evaluate? (place : Place) (text : String) : Option Bool := do
  judgement? place (← splitTopLevel ' ' text.toList)

/-! ### Words are read one by one -/

section Reading

variable {place : Place} {f g : List Char → Option Int}

/-- A row of factors depends on the words that are in it. -/
lemma chain?_congr : ∀ {words : List (List Char)} {pending : Int → Int} {factor : Int},
    (∀ w ∈ words, f w = g w) → chain? f pending factor words = chain? g pending factor words
  | [], _, _, _ => rfl
  | [_], _, _, _ => rfl
  | _ :: word :: words, _, _, h => by
      have hword : f word = g word := h word (by simp)
      have hwords : ∀ w ∈ words, f w = g w := fun w hw => h w (by simp [hw])
      simp only [chain?, hword, chain?_congr hwords]

lemma row?_congr {words : List (List Char)} {pending : Int → Int}
    (h : ∀ w ∈ words, f w = g w) : row? f pending words = row? g pending words := by
  cases words with
  | nil => rfl
  | cons word words =>
      obtain ⟨hword, hwords⟩ := List.forall_mem_cons.mp h
      simp only [row?, hword, chain?_congr hwords]

/-- What is in parentheses is shorter than the word. -/
lemma operand?_congr {word : List Char} (h : ∀ body, body.length < word.length → f body = g body) :
    operand? place f word = operand? place g word := by
  rw [operand?, operand?]
  split_ifs
  · rfl
  · rfl
  · split
    · next body hread =>
        have hlength := length_of_readGroup hread
        have htail := word.length_tail
        exact h body (by omega)
    · rfl
  · rfl

/-- The texts in parentheses are read in the same way. -/
lemma number?_eq (text : List Char) :
    number? place text = (splitTopLevel ' ' text).bind (row? (word? place) id) := by
  rw [number?]
  cases hsplit : splitTopLevel ' ' text with
  | none => rfl
  | some words =>
      refine row?_congr fun word hword => operand?_congr fun body hbody => ?_
      have hle := length_le_of_mem_splitTopLevel hsplit word hword
      rw [dif_pos (Nat.lt_of_lt_of_le hbody hle)]

/-- A sign ends a row of factors and begins a new summand. -/
lemma chain?_plus (pending : Int → Int) (factor : Int) (words : List (List Char)) :
    chain? f pending factor ("+".toList :: words) = row? f (pending factor + ·) words := by
  cases words with
  | nil => rfl
  | cons word words => rw [chain?, row?]; rfl

lemma chain?_minus (pending : Int → Int) (factor : Int) (words : List (List Char)) :
    chain? f pending factor ("-".toList :: words) = row? f (pending factor - ·) words := by
  cases words with
  | nil => rfl
  | cons word words => rw [chain?, row?]; rfl

lemma chain?_mod (pending : Int → Int) (factor : Int) (word : List Char)
    (words : List (List Char)) :
    chain? f pending factor ("mod".toList :: word :: words) =
      ((f word).bind (remainder? factor)).bind fun r => chain? f pending r words := by
  rw [chain?]
  cases f word with
  | none => rfl
  | some value => rfl

/-- Parentheses are taken off as a pair. -/
lemma operand?_parenthesized {body : List Char} (h : Balanced (fun _ => True) body) :
    operand? place f ('(' :: (body ++ [')'])) = f body := by
  have hread : readParenthesized (body ++ [')']) = some (body, []) :=
    readParenthesized_eq_some_iff.mpr ⟨.of_balanced h, rfl⟩
  rw [operand?, if_neg (by simp), if_neg (by simp), if_pos List.head?_cons,
    List.tail_cons, hread]

end Reading

/-! ### Whole numbers -/

lemma natural?_repr (n : Nat) : natural? n.repr.toList = some n := by
  have hdigits : (Nat.toDigits 10 n).all Char.isDigit = true := by
    rw [List.all_eq_true]
    intro c hc
    exact Nat.isDigit_of_mem_toDigits (by decide) (by decide) hc
  rw [Nat.toList_repr, natural?, if_pos ⟨Nat.toDigits_ne_nil, hdigits⟩,
    Nat.ofDigitChars_ten_toDigits]

/-- A symbol of a whole number. -/
def isNumeral (c : Char) : Bool := c.isDigit || c == '-'

lemma isNumeral_of_mem {i : Int} {c : Char} (h : c ∈ (toString i).toList) :
    isNumeral c = true := by
  have hdigit : ∀ {n : Nat}, c ∈ n.repr.toList → isNumeral c = true := by
    intro n hc
    rw [Nat.toList_repr] at hc
    rw [isNumeral, Nat.isDigit_of_mem_toDigits (by decide) (by decide) hc, Bool.true_or]
  rw [Int.toString_eq_repr, Int.repr_eq_if] at h
  split_ifs at h
  · exact hdigit h
  · rw [String.toList_append, List.mem_append] at h
    rcases h with hsign | hc
    · obtain rfl := List.mem_singleton.mp hsign
      rfl
    · exact hdigit hc

lemma not_mem_of_isNumeral {marks : List Char} (hmarks : marks.all fun m => !isNumeral m) {c : Char}
    (h : isNumeral c = true) : c ∉ marks := by
  intro hmem
  simpa [h] using List.all_eq_true.mp hmarks c hmem

/-- A whole number is read back from its digits. -/
lemma integer?_toString (i : Int) : integer? (toString i).toList = some i := by
  rw [Int.toString_eq_repr, Int.repr_eq_if]
  split_ifs with hi
  · have hsign : i.toNat.repr.toList.head? ≠ some '-' := by
      intro h
      have hmem := List.mem_of_mem_head? h
      rw [Nat.toList_repr] at hmem
      exact absurd (Nat.isDigit_of_mem_toDigits (by decide) (by decide) hmem) (by decide)
    rw [integer?, if_neg hsign, natural?_repr, Option.map_some]
    exact congrArg some (Int.toNat_of_nonneg hi)
  · have htext : ("-" ++ (-i).toNat.repr).toList = '-' :: (-i).toNat.repr.toList := by simp
    rw [integer?, htext, if_pos List.head?_cons, List.tail_cons, natural?_repr, Option.map_some]
    exact congrArg some (by omega)

/-- A word that begins neither a function nor a group is a whole number. -/
lemma operand?_of_head {place : Place} {f : List Char → Option Int} {word : List Char}
    (h : ∀ c ∈ word.head?, c ∉ ['p', 'l', '(']) : operand? place f word = integer? word := by
  have hposition : word ≠ "position()".toList := by
    rintro rfl
    exact h 'p' rfl (by simp)
  have hlast : word ≠ "last()".toList := by
    rintro rfl
    exact h 'l' rfl (by simp)
  have hgroup : word.head? ≠ some '(' := fun hhead => h '(' hhead (by simp)
  rw [operand?, if_neg hposition, if_neg hlast, if_neg hgroup]

/-! ### The words of a number -/

lemma intercalate_append {separator : List Char} {left right : List (List Char)} (hl : left ≠ [])
    (hr : right ≠ []) : separator.intercalate (left ++ right) =
      separator.intercalate left ++ separator ++ separator.intercalate right := by
  induction left with
  | nil => exact absurd rfl hl
  | cons w left ih =>
      cases left with
      | nil =>
          obtain ⟨v, right, rfl⟩ := List.exists_cons_of_ne_nil hr
          rw [List.singleton_append, List.intercalate_cons_cons, List.intercalate_singleton]
      | cons v left =>
          rw [List.cons_append, List.cons_append, List.intercalate_cons_cons,
            List.intercalate_cons_cons, ← List.cons_append, ih (List.cons_ne_nil v left)]
          simp only [List.append_assoc]

/-- Words around a sign. -/
lemma intercalate_sign {left right : List (List Char)} (sign : List Char) (hl : left ≠ [])
    (hr : right ≠ []) : [' '].intercalate (left ++ sign :: right) =
      [' '].intercalate left ++ (' ' :: sign ++ [' ']) ++ [' '].intercalate right := by
  calc [' '].intercalate (left ++ ([sign] ++ right))
      = [' '].intercalate left ++ [' '] ++ [' '].intercalate ([sign] ++ right) :=
        intercalate_append hl (by simp)
    _ = [' '].intercalate left ++ [' '] ++ (sign ++ [' '] ++ [' '].intercalate right) := by
        rw [intercalate_append (by simp) hr, List.intercalate_singleton]
    _ = _ := by simp

/-- The word has neither spaces nor brackets nor quotation marks in it. -/
def IsUnspaced (word : List Char) : Prop := ∀ c ∈ word, IsPlain c ∧ c ≠ ' '

instance : DecidablePred IsUnspaced := fun word => List.decidableBAll _ word

lemma IsUnspaced.balanced {word : List Char} (h : IsUnspaced word) : Balanced (· ≠ ' ') word :=
  .of_plain h

namespace Number

/-- The number is a remainder, which is written without parentheses. -/
def isRemainder : Number → Bool
  | .remainder _ _ => true
  | _ => false

/-- No divisor is a remainder itself. -/
def IsReadable : Number → Prop
  | .position | .last | .descendants | .integer _ => True
  | .sum a b | .difference a b => a.IsReadable ∧ b.IsReadable
  | .remainder a b => a.IsReadable ∧ b.IsReadable ∧ b.isRemainder = false

/-- The words that a number is written with. -/
def words : Number → List (List Char)
  | .remainder a b => a.words ++ "mod".toList :: b.words
  | n => [n.render.toList]

/-- All numbers but remainders are one word, since the others stand in parentheses. -/
lemma words_of_not_isRemainder {n : Number} (h : n.isRemainder = false) :
    n.words = [n.render.toList] := by
  cases n with
  | remainder => simp [isRemainder] at h
  | _ => rfl

lemma words_ne_nil (n : Number) : n.words ≠ [] := by
  cases n <;> simp [words]

lemma render_eq_words (n : Number) : n.render.toList = [' '].intercalate n.words := by
  induction n with
  | remainder a b iha ihb =>
      rw [words, intercalate_sign _ a.words_ne_nil b.words_ne_nil, ← iha, ← ihb, render]
      simp
  | _ => rw [words_of_not_isRemainder rfl, List.intercalate_singleton]

/-- The text between the parentheses of a sum or difference. -/
def pair (a b : Number) (sign : List Char) : List Char :=
  a.render.toList ++ (' ' :: sign ++ [' ']) ++ b.render.toList

lemma render_sum (a b : Number) :
    (Number.sum a b).render.toList = '(' :: (pair a b "+".toList ++ [')']) := by
  rw [render.eq_def]
  simp [pair]

lemma render_difference (a b : Number) :
    (Number.difference a b).render.toList = '(' :: (pair a b "-".toList ++ [')']) := by
  rw [render.eq_def]
  simp [pair]

/-- What stands in parentheses is balanced itself. -/
lemma balanced_pair (a b : Number) {sign : List Char} (hsign : IsUnspaced sign) :
    Balanced (fun _ => True) (pair a b sign) := by
  have hspace : Balanced (fun _ => True) [' '] := .plain (by decide) trivial
  have hmiddle : Balanced (fun _ => True) (' ' :: sign ++ [' ']) :=
    (hspace.append (hsign.balanced.mono fun _ _ => trivial)).append hspace
  exact (Balanced.append a.solid_render.enclosed hmiddle).append b.solid_render.enclosed

/-- A function with its argument is a single word. -/
lemma balanced_call (name argument : String) (hname : IsUnspaced name.toList)
    (h : Balanced (fun _ => True) argument.toList) :
    Balanced (· ≠ ' ') (name ++ "(" ++ argument ++ ")").toList := by
  simpa using Balanced.call hname h

/-- A number that is no remainder is a single word. -/
lemma balanced_render {n : Number} (h : n.isRemainder = false) :
    Balanced (· ≠ ' ') n.render.toList := by
  cases n with
  | position => exact balanced_call "position" "" (by decide) .nil
  | last => exact balanced_call "last" "" (by decide) .nil
  | descendants =>
      have hargument : Solid "descendant::*" := .of_isWord (by decide)
      exact balanced_call "count" "descendant::*" (by decide) hargument.enclosed
  | integer i =>
      refine .of_plain fun c hc => ⟨?_, ?_⟩
      · exact not_mem_of_isNumeral (by decide) (isNumeral_of_mem hc)
      · rintro rfl
        exact absurd (isNumeral_of_mem hc) (by decide)
  | sum a b =>
      rw [render_sum]
      exact .group .round (balanced_pair a b (by decide))
  | difference a b =>
      rw [render_difference]
      exact .group .round (balanced_pair a b (by decide))
  | remainder => simp [isRemainder] at h

/-- A word has spaces only in parentheses. -/
lemma balanced_words (n : Number) : ∀ w ∈ n.words, Balanced (· ≠ ' ') w := by
  induction n with
  | remainder a b iha ihb =>
      intro w hw
      rcases List.mem_append.mp hw with hw | hw
      · exact iha w hw
      · rcases List.mem_cons.mp hw with rfl | hw
        · exact IsUnspaced.balanced (by decide)
        · exact ihb w hw
  | _ =>
      rw [words_of_not_isRemainder rfl]
      exact List.forall_mem_singleton.mpr (balanced_render rfl)

end Number

/-! ### Numbers that are written come to the same when they are read -/

section Numbers

variable {place : Place}

/-- A row of words begins with the value of a number. -/
def Number.Reads (place : Place) (n : Number) : Prop :=
  ∀ pending more, row? (word? place) pending (n.words ++ more) =
    (n.value? place).bind fun v => chain? (word? place) pending v more

/-- A number of one word is read if this word is. -/
lemma reads_of_word {n : Number} (hsingle : n.isRemainder = false)
    (h : word? place n.render.toList = n.value? place) : n.Reads place := by
  intro pending more
  rw [Number.words_of_not_isRemainder hsingle, List.singleton_append, row?, h]
  rfl

/-- A number that is read may follow any sign. -/
lemma Number.Reads.row? {n : Number} (h : n.Reads place) (pending : Int → Int) :
    XPath.row? (word? place) pending n.words = (n.value? place).map pending := by
  have hrow := h pending []
  rw [List.append_nil] at hrow
  rw [hrow]
  cases n.value? place with
  | none => rfl
  | some v => rfl

lemma Number.Reads.word? {n : Number} (h : n.Reads place) (hsingle : n.isRemainder = false) :
    XPath.word? place n.render.toList = n.value? place := by
  have hrow := h.row? id
  rw [words_of_not_isRemainder hsingle, XPath.row?, Option.map_id] at hrow
  simpa [chain?] using hrow

/-- Two numbers around a sign are read from the left to the right. -/
lemma number?_pair {a b : Number} (ha : a.Reads place) (hb : b.Reads place) {sign : List Char}
    (hsign : IsUnspaced sign) {op : Int → Int → Int}
    (hop : ∀ factor words, chain? (word? place) id factor (sign :: words) =
      row? (word? place) (op factor) words) :
    number? place (Number.pair a b sign) =
      (a.value? place).bind fun x => (b.value? place).map (op x) := by
  have htext : Number.pair a b sign = [' '].intercalate (a.words ++ sign :: b.words) := by
    rw [intercalate_sign sign a.words_ne_nil b.words_ne_nil, ← a.render_eq_words,
      ← b.render_eq_words, Number.pair]
  have hwords : ∀ w ∈ a.words ++ sign :: b.words, Balanced (· ≠ ' ') w := by
    intro w hw
    rcases List.mem_append.mp hw with hw | hw
    · exact a.balanced_words w hw
    · rcases List.mem_cons.mp hw with rfl | hw
      · exact hsign.balanced
      · exact b.balanced_words w hw
  calc number? place (Number.pair a b sign)
      = row? (word? place) id (a.words ++ sign :: b.words) := by
        rw [number?_eq, htext, splitTopLevel_intercalate (by decide) (by simp) hwords,
          Option.bind_some]
    _ = (a.value? place).bind fun x => chain? (word? place) id x (sign :: b.words) := ha _ _
    _ = (a.value? place).bind fun x => (b.value? place).map (op x) := by
        simp only [hop, hb.row?]

/-- A number is read as it is meant. -/
theorem reads_number {n : Number} (h : n.IsReadable) : n.Reads place := by
  induction n with
  | position => exact reads_of_word rfl rfl
  | last => exact reads_of_word rfl rfl
  | descendants =>
      refine reads_of_word rfl ?_
      rw [word?, operand?_of_head (by simp [Number.render])]
      rfl
  | integer i =>
      refine reads_of_word rfl ?_
      have hhead : ∀ c ∈ (Number.integer i).render.toList.head?, c ∉ ['p', 'l', '('] := by
        intro c hc
        exact not_mem_of_isNumeral (by decide) (isNumeral_of_mem (List.mem_of_mem_head? hc))
      rw [word?, operand?_of_head hhead]
      exact integer?_toString i
  | sum a b iha ihb =>
      refine reads_of_word rfl ?_
      -- sums and differences stand in parentheses, and so they are one word
      rw [word?, Number.render_sum, operand?_parenthesized (Number.balanced_pair a b (by decide)),
        number?_pair (iha h.1) (ihb h.2) (by decide) (chain?_plus id), Number.value?]
      cases a.value? place <;> cases b.value? place <;> rfl
  | difference a b iha ihb =>
      refine reads_of_word rfl ?_
      rw [word?, Number.render_difference,
        operand?_parenthesized (Number.balanced_pair a b (by decide)),
        number?_pair (iha h.1) (ihb h.2) (by decide) (chain?_minus id), Number.value?]
      cases a.value? place <;> cases b.value? place <;> rfl
  | remainder a b iha ihb =>
      obtain ⟨ha, hb, hsingle⟩ := h
      -- a remainder is written without parentheses: its words go on in the chain
      intro pending more
      rw [Number.words, List.append_assoc, List.cons_append, iha ha,
        Number.words_of_not_isRemainder hsingle, List.singleton_append]
      simp only [chain?_mod, (ihb hb).word? hsingle, Number.value?]
      cases a.value? place <;> cases b.value? place <;> rfl

end Numbers

/-! ### Conditions that are written come to the same when they are read -/

/-- The symbols that relations and `and` begin with. -/
def signHeads : List Char := ['=', '>', '<', 'a']

/-- No word of a number is a relation or `and`. -/
lemma Number.head_words {n : Number} {w : List Char} (h : w ∈ n.words) :
    ∀ c ∈ w.head?, c ∉ signHeads := by
  induction n with
  | remainder a b iha ihb =>
      rcases List.mem_append.mp h with h | h
      · exact iha h
      · rcases List.mem_cons.mp h with rfl | h
        · simp [signHeads]
        · exact ihb h
  | integer i =>
      obtain rfl := List.mem_singleton.mp h
      intro c hc
      exact not_mem_of_isNumeral (by decide) (isNumeral_of_mem (List.mem_of_mem_head? hc))
  | sum a b =>
      obtain rfl := List.mem_singleton.mp h
      simp [render_sum, signHeads]
  | difference a b =>
      obtain rfl := List.mem_singleton.mp h
      simp [render_difference, signHeads]
  | position | last | descendants =>
      obtain rfl := List.mem_singleton.mp h
      rw [render.eq_def]
      simp [signHeads]

/-- No word of a number looks like a relation. -/
lemma Relation.ofWord?_eq_none {w : List Char} (h : ∀ c ∈ w.head?, c ∉ signHeads) :
    ofWord? w = none := by
  rw [ofWord?, List.find?_eq_none]
  intro r _ heq
  obtain rfl := eq_of_beq heq
  cases r <;> exact h _ rfl (by decide)

lemma Relation.ofWord?_render (r : Relation) : ofWord? r.render.toList = some r := by
  cases r <;> decide

namespace Condition

/-- The condition is about the place only, and its numbers can be read. -/
def IsReadable : Condition → Prop
  | .compare _ a b => a.IsReadable ∧ b.IsReadable
  | .conjunction a b => a.IsReadable ∧ b.IsReadable
  | _ => False

/-- The words that a condition is written with. -/
def words : Condition → List (List Char)
  | .compare relation a b => a.words ++ relation.render.toList :: b.words
  | .conjunction a b => a.words ++ "and".toList :: b.words
  | _ => []

variable {place : Place} {c : Condition}

lemma words_ne_nil (h : c.IsReadable) : c.words ≠ [] := by
  cases c with
  | compare | conjunction => simp [words]
  | _ => exact h.elim

lemma render_eq_words (h : c.IsReadable) (folding : Folding) :
    (c.render folding).toList = [' '].intercalate c.words := by
  -- as for numbers, the unfolding of `render` is the faster way
  induction c with
  | compare relation a b =>
      rw [words, intercalate_sign _ a.words_ne_nil b.words_ne_nil, ← a.render_eq_words,
        ← b.render_eq_words, render.eq_def]
      simp
  | conjunction a b iha ihb =>
      rw [words, intercalate_sign _ (words_ne_nil h.1) (words_ne_nil h.2), ← iha h.1, ← ihb h.2,
        render.eq_def]
      simp
  | _ => exact h.elim

lemma balanced_words (h : c.IsReadable) : ∀ w ∈ c.words, Balanced (· ≠ ' ') w := by
  induction c with
  | compare relation a b =>
      intro w hw
      rcases List.mem_append.mp hw with hw | hw
      · exact a.balanced_words w hw
      · rcases List.mem_cons.mp hw with rfl | hw
        · cases relation <;> exact IsUnspaced.balanced (by decide)
        · exact b.balanced_words w hw
  | conjunction a b iha ihb =>
      intro w hw
      rcases List.mem_append.mp hw with hw | hw
      · exact iha h.1 w hw
      · rcases List.mem_cons.mp hw with rfl | hw
        · exact IsUnspaced.balanced (by decide)
        · exact ihb h.2 w hw
  | _ => exact h.elim

end Condition

section Conditions

variable {place : Place}

/-- The relation is the first word that is one, since the number before it has none. -/
lemma comparison?_words (relation : Relation) {a b : Number} (ha : a.IsReadable)
    (hb : b.IsReadable) :
    comparison? place (a.words ++ relation.render.toList :: b.words) =
      (Condition.compare relation a b).truth? place := by
  have hnumber : ∀ w ∈ a.words, (Relation.ofWord? w).isNone = true := fun w hw => by
    rw [Relation.ofWord?_eq_none (Number.head_words hw), Option.isNone_none]
  rw [comparison?, List.takeWhile_append_of_pos hnumber, List.dropWhile_append_of_pos hnumber,
    List.takeWhile_cons_of_neg (by simp [Relation.ofWord?_render]),
    List.dropWhile_cons_of_neg (by simp [Relation.ofWord?_render]), List.append_nil,
    (reads_number ha).row?, Option.map_id]
  simp only [Relation.ofWord?_render, (reads_number hb).row?, Option.map_id, Condition.truth?]
  rfl

/-- A condition is judged as it is meant. -/
lemma judgement?_words {c : Condition} (h : c.IsReadable) :
    judgement? place c.words = c.truth? place := by
  induction c with
  | compare relation a b =>
      -- no word of a number begins like `and`, so there is one comparison
      have hand : "and".toList ∉ a.words ++ relation.render.toList :: b.words := by
        intro hmem
        rcases List.mem_append.mp hmem with hmem | hmem
        · exact Number.head_words hmem 'a' rfl (by decide)
        · rcases List.mem_cons.mp hmem with heq | hmem
          · cases relation <;> exact absurd heq (by decide)
          · exact Number.head_words hmem 'a' rfl (by decide)
      rw [Condition.words, judgement?, List.splitOn_eq_singleton hand, List.mapM_cons,
        comparison?_words relation h.1 h.2]
      cases (Condition.compare relation a b).truth? place with
      | none => rfl
      | some truth => simp
  | conjunction a b iha ihb =>
      have hsplit : (a.words ++ "and".toList :: b.words).splitOn "and".toList =
          a.words.splitOn "and".toList ++ b.words.splitOn "and".toList :=
        List.splitOnP_append_cons _ _ (beq_self_eq_true _)
      rw [Condition.truth?, ← iha h.1, ← ihb h.2, Condition.words, judgement?, hsplit,
        List.mapM_append, judgement?, judgement?]
      cases (a.words.splitOn "and".toList).mapM (comparison? place) with
      | none => rfl
      | some left =>
          cases (b.words.splitOn "and".toList).mapM (comparison? place) with
          | none => rfl
          | some right => simp
  | _ => exact h.elim

/-- A condition on positions comes to the same, whether it is taken as it is meant
or read from the text that it is written as. -/
theorem evaluate?_render {c : Condition} (h : c.IsReadable) (folding : Folding) :
    evaluate? place (c.render folding) = c.truth? place := by
  rw [evaluate?, Condition.render_eq_words h,
    splitTopLevel_intercalate (by decide) (Condition.words_ne_nil h) (Condition.balanced_words h)]
  exact judgement?_words h

-- the remainder has the sign of what is divided
example : evaluate? ⟨2, 9, by decide, by decide⟩
    "(position() - 5) mod 2 = -1 and position() <= 5" = some true := by
  decide +kernel

end Conditions

end SelectorPath.XPath
