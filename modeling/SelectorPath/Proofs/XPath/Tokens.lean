/-
The tokens of an XPath expression.

An expression is read from left to right. White space only keeps tokens apart, a
quotation mark begins a string that runs to the next mark of the same kind, a run of
name symbols is one word however long it is, and every other symbol is a token by
itself.

* `XPath.tokens?`: the tokens of a text, unless a string in it is left open.
* `XPath.Spells`: the text begins with these tokens, whatever follows that is no
  part of a word.
* `Spells.string`, `Spells.word`: strings and words by themselves.
-/
import SelectorPath.Proofs.Text.Quotations
import SelectorPath.Proofs.Text.Words

namespace SelectorPath.XPath

open Text

/-- The smallest parts of an expression. -/
inductive Token where
  /-- A text, without the quotation marks around it. -/
  | string (value : String)
  /-- The name of an attribute or of a function. -/
  | word (name : String)
  /-- Any other symbol. -/
  | mark (c : Char)
  deriving DecidableEq

/-- The symbols of words: those of names, and the colon inside a qualified name. -/
def isWordSymbol (c : Char) : Bool := Symbol.isName c || c == ':'

/-- The tokens of a text. There are none if it ends inside a string. -/
def tokens? : List Char → Option (List Token)
  | [] => some []
  | c :: rest =>
    if isXmlSpace c then tokens? rest
    else if isWordSymbol c then
      let name := c :: rest.takeWhile isWordSymbol
      (tokens? (rest.dropWhile isWordSymbol)).map (.word (String.ofList name) :: ·)
    else if (Quote.of? c).isSome then
      let value := rest.takeWhile (· != c)
      let behind := rest.dropWhile (· != c)
      if behind.isEmpty then none
      else (tokens? behind.tail).map (.string (String.ofList value) :: ·)
    else (tokens? rest).map (.mark c :: ·)
termination_by text => text.length
decreasing_by
  · simp
  · exact Nat.lt_succ_of_le (List.dropWhile_suffix _).length_le
  · exact Nat.lt_succ_of_le ((List.tail_suffix _).trans (List.dropWhile_suffix _)).length_le
  · simp

/-! ### One token after the other -/

@[simp] lemma tokens?_nil : tokens? [] = some [] := by rw [tokens?]

variable {c : Char} {rest : List Char}

/-- Spaces separate tokens and are none themselves. -/
lemma tokens?_space (h : isXmlSpace c = true) : tokens? (c :: rest) = tokens? rest := by
  rw [tokens?, if_pos h]

lemma isXmlSpace_of_isWordSymbol (h : isWordSymbol c = true) : isXmlSpace c = false := by
  refine Bool.eq_false_iff.mpr fun hspace => ?_
  simp only [isXmlSpace, Bool.or_eq_true, beq_iff_eq] at hspace
  rcases hspace with ((rfl | rfl) | rfl) | rfl <;> exact absurd h (by decide)

/-- A symbol that is a token by itself. -/
structure IsMark (c : Char) : Prop where
  space : isXmlSpace c = false
  word : isWordSymbol c = false
  quote : Quote.of? c = none

instance : DecidablePred IsMark := fun _ => decidable_of_iff (_ ∧ _ ∧ _)
  ⟨fun ⟨h₁, h₂, h₃⟩ => ⟨h₁, h₂, h₃⟩, fun ⟨h₁, h₂, h₃⟩ => ⟨h₁, h₂, h₃⟩⟩

lemma tokens?_mark (h : IsMark c) : tokens? (c :: rest) = (tokens? rest).map (.mark c :: ·) := by
  rw [tokens?, if_neg (by simp [h.space]), if_neg (by simp [h.word]), if_neg (by simp [h.quote])]

/-- A string ends at the next mark of its kind. -/
lemma tokens?_quotation {q : Quote} {value : List Char} (h : q.mark ∉ value) :
    tokens? (quotation q value ++ rest) =
      (tokens? rest).map (.string (String.ofList value) :: ·) := by
  have hvalue : ∀ c ∈ value, (c != q.mark) = true := by
    intro c hc
    rw [bne_iff_ne]
    rintro rfl
    exact h hc
  have hdrop : (value ++ q.mark :: rest).dropWhile (· != q.mark) = q.mark :: rest := by
    rw [List.dropWhile_append_of_pos hvalue]
    simp
  have htake : (value ++ q.mark :: rest).takeWhile (· != q.mark) = value := by
    rw [List.takeWhile_append_of_pos hvalue]
    simp
  rw [quotation_append, tokens?, if_neg (by cases q <;> decide), if_neg (by cases q <;> decide),
    if_pos (by cases q <;> decide), hdrop, htake, if_neg (by simp), List.tail_cons]

/-- The text does not go on with a word. -/
def Breaks (rest : List Char) : Prop := ∀ c ∈ rest.head?, isWordSymbol c = false

/-- A word ends where no symbol of words follows. -/
lemma tokens?_word {name : List Char} (hne : name ≠ [])
    (hname : ∀ c ∈ name, isWordSymbol c = true) (hrest : Breaks rest) :
    tokens? (name ++ rest) = (tokens? rest).map (.word (String.ofList name) :: ·) := by
  obtain ⟨c, name, rfl⟩ := List.exists_cons_of_ne_nil hne
  obtain ⟨hc, hname⟩ := List.forall_mem_cons.mp hname
  have hdrop : rest.dropWhile isWordSymbol = rest := by
    cases rest with
    | nil => rfl
    | cons d rest => exact List.dropWhile_cons_of_neg (by simpa using hrest d rfl)
  have htake : rest.takeWhile isWordSymbol = [] := by
    cases rest with
    | nil => rfl
    | cons d rest => exact List.takeWhile_cons_of_neg (by simpa using hrest d rfl)
  rw [List.cons_append, tokens?, if_neg (by simp [isXmlSpace_of_isWordSymbol hc]), if_pos hc,
    List.dropWhile_append_of_pos hname, List.takeWhile_append_of_pos hname, hdrop, htake,
    List.append_nil]

/-! ### Texts in front of others -/

/-- The text begins with these tokens, whatever comes behind them but more of the
last word. -/
def Spells (text : String) (ts : List Token) : Prop :=
  ∀ rest, Breaks rest → tokens? (text.toList ++ rest) = (tokens? rest).map (ts ++ ·)

lemma Spells.tokens_eq {text : String} {ts : List Token} (h : Spells text ts) :
    tokens? text.toList = some ts := by
  simpa using h [] (by simp [Breaks])

/-- A text in front of a mark. -/
lemma Spells.append_mark {text : String} {ts : List Token} (h : Spells text ts) (hc : IsMark c) :
    tokens? (text.toList ++ c :: rest) = (tokens? rest).map (ts ++ .mark c :: ·) := by
  rw [h _ (by simpa [Breaks] using hc.word), tokens?_mark hc, Option.map_map]
  rfl

/-- A quotation is one token, with its value inside. -/
lemma Spells.string {q : Quote} {value : String} (h : q.mark ∉ value.toList) :
    Spells (String.ofList (quotation q value.toList)) [.string value] := by
  intro rest _
  rw [String.toList_ofList, tokens?_quotation h, String.ofList_toList]
  rfl

/-- The text is a word. -/
structure IsWordText (name : String) : Prop where
  ne_nil : name.toList ≠ []
  symbols : ∀ c ∈ name.toList, isWordSymbol c = true

instance : DecidablePred IsWordText := fun name =>
  have : Decidable (∀ c ∈ name.toList, isWordSymbol c = true) := List.decidableBAll _ name.toList
  decidable_of_iff (name.toList ≠ [] ∧ ∀ c ∈ name.toList, isWordSymbol c = true)
    ⟨fun h => ⟨h.1, h.2⟩, fun h => ⟨h.ne_nil, h.symbols⟩⟩

/-- A word is one token, provided that what follows does not go on with it. -/
lemma Spells.word {name : String} (h : IsWordText name) : Spells name [.word name] := by
  intro rest hrest
  rw [tokens?_word h.ne_nil h.symbols hrest, String.ofList_toList]
  rfl

end SelectorPath.XPath
