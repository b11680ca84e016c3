/-
Words of a text, and the search for them with a space on either side.

An attribute such as `class` holds a list of words with white space between them.
A word is looked for by a plain search: the white space is brought down to single
spaces, a space is put in front of the text and behind it, and the word is
searched for between two spaces.

* `Text.words`: the words of a text.
* `Text.normalizeSpace`: the text without white space around it and with single
  spaces inside, which is its words with spaces between them
  (`Text.normalizeSpace_eq`).
* `Text.splitOn_normalizeSpace`: the pieces of a normalized text are its words.
* `Text.words_intercalate`: words with single spaces between them are found again.
* `Text.padded_infix_iff`: what stands between two spaces of a padded text is a row
  of its pieces.
* `Text.padded_infix_normalizeSpace_iff`: so the search finds the words, but also
  several words in a row, and nothing at all where there are no words.
-/
import Mathlib.Data.List.DropRight
import Mathlib.Tactic.Lemma
import Mathlib.Tactic.SplitIfs

namespace SelectorPath.Text

/-- The white space of XML: space, tab, line feed and carriage return. -/
def isXmlSpace (c : Char) : Bool := c == ' ' || c == '\t' || c == '\n' || c == '\r'

/-- The words of a text: what is left between its white space. -/
def words (text : List Char) : List (List Char) :=
  (text.splitOnP isXmlSpace).filter (!·.isEmpty)

/-- The text with one space in the place of each run of white space. -/
def squeeze : List Char → List Char
  | [] => []
  | c :: rest =>
    if !isXmlSpace c then c :: squeeze rest
    else if rest.head?.any isXmlSpace then squeeze rest
    else ' ' :: squeeze rest

/-- The text without white space around it, and with single spaces inside. -/
def normalizeSpace (text : List Char) : List Char :=
  squeeze ((text.dropWhile isXmlSpace).rdropWhile isXmlSpace)

/-! ### Words -/

/-- A word has symbols, and none of them is a space. -/
lemma mem_words {text word : List Char} (h : word ∈ words text) :
    word ≠ [] ∧ ∀ c ∈ word, isXmlSpace c = false := by
  obtain ⟨hmem, hne⟩ := List.mem_filter.mp h
  refine ⟨by simpa using hne, ?_⟩
  clear h hne
  induction text generalizing word with
  | nil => simp_all [List.splitOnP_nil]
  | cons c text ih =>
      rw [List.splitOnP_cons_eq_if_modifyHead] at hmem
      split_ifs at hmem with hc
      · rcases List.mem_cons.mp hmem with rfl | hmem
        · simp
        · exact ih hmem
      · obtain ⟨piece, more, hpieces⟩ :=
          List.exists_cons_of_ne_nil (List.splitOnP_ne_nil isXmlSpace text)
        rw [hpieces] at hmem ih
        rcases List.mem_cons.mp hmem with rfl | hmem
        · exact List.forall_mem_cons.mpr ⟨by simpa using hc, ih List.mem_cons_self⟩
        · exact ih (List.mem_cons_of_mem piece hmem)

/-- Spaces in front make no word. -/
lemma words_dropWhile (text : List Char) : words (text.dropWhile isXmlSpace) = words text := by
  induction text with
  | nil => rfl
  | cons c text ih =>
      rw [List.dropWhile_cons]
      split_ifs with hc
      · rw [ih]
        simp [words, List.splitOnP_cons_eq_if_modifyHead, hc]
      · rfl

/-! ### Normalized texts -/

/-- White space at the front stays, unless there is nothing else. -/
lemma rdropWhile_cons (c : Char) (rest : List Char) :
    (c :: rest).rdropWhile isXmlSpace =
      if isXmlSpace c = true ∧ rest.rdropWhile isXmlSpace = [] then []
      else c :: rest.rdropWhile isXmlSpace := by
  rw [List.rdropWhile, List.rdropWhile, List.reverse_cons, List.dropWhile_append]
  by_cases hnil : List.dropWhile isXmlSpace rest.reverse = []
  · by_cases hc : isXmlSpace c = true <;> simp [hnil, hc]
  · simp [hnil]

/-- Pieces that follow another, each behind a space; empty ones do not count. -/
def following (pieces : List (List Char)) : List Char :=
  (pieces.filter (!·.isEmpty)).flatMap (' ' :: ·)

lemma following_cons_nil (pieces : List (List Char)) :
    following ([] :: pieces) = following pieces :=
  rfl

/-- A piece that is not empty is a word, with a space before it. -/
lemma following_cons {piece : List Char} (h : piece ≠ []) (pieces : List (List Char)) :
    following (piece :: pieces) = ' ' :: (piece ++ following pieces) := by
  simp [following, h]

/-- The first piece is empty if the text begins with white space. -/
lemma piece_eq_nil_iff {c : Char} {text piece : List Char} {more : List (List Char)}
    (h : (c :: text).splitOnP isXmlSpace = piece :: more) : piece = [] ↔ isXmlSpace c = true := by
  obtain ⟨next, others, hnext⟩ :=
    List.exists_cons_of_ne_nil (List.splitOnP_ne_nil isXmlSpace text)
  rw [List.splitOnP_cons_eq_if_modifyHead, hnext] at h
  split_ifs at h with hc
  · simp [(List.cons.inj h).1, hc]
  · simp [← (List.cons.inj h).1, hc]

/-- White space between the pieces of a text is one space if another word comes,
and nothing at the end. -/
lemma squeeze_rdropWhile {text piece : List Char} {more : List (List Char)}
    (h : text.splitOnP isXmlSpace = piece :: more) :
    squeeze (text.rdropWhile isXmlSpace) = piece ++ following more := by
  induction text generalizing piece more with
  | nil =>
      obtain ⟨rfl, rfl⟩ := by simpa [List.splitOnP_nil] using h
      rfl
  | cons c text ih =>
      obtain ⟨next, others, hnext⟩ :=
        List.exists_cons_of_ne_nil (List.splitOnP_ne_nil isXmlSpace text)
      have ih := ih hnext
      rw [List.splitOnP_cons_eq_if_modifyHead, hnext] at h
      rw [rdropWhile_cons]
      split_ifs at h with hc
      · obtain ⟨rfl, rfl⟩ := List.cons.inj h
        by_cases hnil : text.rdropWhile isXmlSpace = []
        · rw [hnil] at ih
          obtain ⟨rfl, hothers⟩ := List.append_eq_nil_iff.mp ih.symm
          rw [if_pos ⟨hc, hnil⟩, following_cons_nil, hothers]
          rfl
        · obtain ⟨d, rest, hrest⟩ := List.exists_cons_of_ne_nil hnil
          obtain ⟨after, rfl⟩ : ∃ after, text = d :: after := by
            obtain ⟨after, hafter⟩ := List.rdropWhile_prefix isXmlSpace text
            exact ⟨rest ++ after, by rw [← hafter, hrest, List.cons_append]⟩
          -- in front of another space this one is left out, in front of a word it is written
          have hfirst := piece_eq_nil_iff hnext
          rw [if_neg (by simp [hnil]), squeeze, if_neg (by simp [hc]), ih, hrest, List.head?_cons,
            Option.any_some, List.nil_append]
          split_ifs with hd
          · rw [hfirst.mpr hd, following_cons_nil, List.nil_append]
          · rw [following_cons fun hpiece => hd (hfirst.mp hpiece)]
      · obtain ⟨rfl, rfl⟩ := by simpa using h
        rw [if_neg (by simp [hc]), squeeze, if_pos (by simp [hc]), ih]
        rfl

/-- Pieces with a separator between them: all but the first are behind one. -/
lemma intercalate_cons (separator piece : List Char) (more : List (List Char)) :
    separator.intercalate (piece :: more) = piece ++ more.flatMap (separator ++ ·) := by
  induction more generalizing piece with
  | nil => simp
  | cons next more ih =>
      rw [List.intercalate_cons_cons, ih, List.flatMap_cons]
      simp

lemma intercalate_space (piece : List Char) (more : List (List Char)) :
    [' '].intercalate (piece :: more) = piece ++ more.flatMap (' ' :: ·) :=
  intercalate_cons [' '] piece more

/-- **The words of a text with single spaces between them.** -/
theorem normalizeSpace_eq (text : List Char) :
    normalizeSpace text = [' '].intercalate (words text) := by
  obtain ⟨piece, more, hpieces⟩ := List.exists_cons_of_ne_nil
    (List.splitOnP_ne_nil isXmlSpace (text.dropWhile isXmlSpace))
  rw [normalizeSpace, squeeze_rdropWhile hpieces, ← words_dropWhile, words, hpieces]
  cases hdrop : text.dropWhile isXmlSpace with
  | nil =>
      rw [hdrop] at hpieces
      obtain ⟨rfl, rfl⟩ := by simpa [List.splitOnP_nil] using hpieces
      rfl
  | cons c rest =>
      rw [hdrop] at hpieces
      have hc : isXmlSpace c = false := by
        have hhead := List.head?_dropWhile_not isXmlSpace text
        simpa [hdrop] using hhead
      have hne : piece ≠ [] := fun hnil => by simp [(piece_eq_nil_iff hpieces).mp hnil] at hc
      rw [List.filter_cons_of_pos (by simpa using hne), intercalate_space, following]

/-- The pieces of a normalized text between its spaces: the words, or nothing at
all. -/
theorem splitOn_normalizeSpace (text : List Char) :
    (normalizeSpace text).splitOn ' ' = if words text = [] then [[]] else words text := by
  rw [normalizeSpace_eq]
  split_ifs with hnil
  · rw [hnil, List.intercalate_nil, List.splitOn_nil]
  · refine List.splitOn_intercalate ' ' (fun word hword hmem => ?_) hnil
    simpa [isXmlSpace] using (mem_words hword).2 ' ' hmem

/-- Words that are written with single spaces between them are found again. -/
theorem words_intercalate {row : List (List Char)}
    (h : ∀ word ∈ row, word ≠ [] ∧ ∀ c ∈ word, isXmlSpace c = false) :
    words ([' '].intercalate row) = row := by
  induction row with
  | nil => rfl
  | cons word row ih =>
      obtain ⟨⟨hne, hsolid⟩, hrow⟩ := List.forall_mem_cons.mp h
      cases row with
      | nil =>
          rw [List.intercalate_singleton, words, List.splitOnP_eq_singleton hsolid,
            List.filter_cons_of_pos (by simpa using hne), List.filter_nil]
      | cons next row =>
          have hapart : [' '].intercalate (word :: next :: row) =
              word ++ ' ' :: [' '].intercalate (next :: row) := by
            rw [List.intercalate_cons_cons]
            simp
          rw [hapart, words, List.splitOnP_append_cons_of_forall_mem hsolid ' ' rfl,
            List.filter_cons_of_pos (by simpa using hne)]
          exact congrArg (word :: ·) (ih hrow)

/-! ### The search with a space on either side -/

/-- The text with a space in front and one behind. -/
def padded (text : List Char) : List Char := ' ' :: (text ++ [' '])

/-- The spaces around a text are two cuts more. -/
lemma splitOn_padded (text : List Char) :
    (padded text).splitOn ' ' = [] :: (text.splitOn ' ' ++ [[]]) := by
  have hfront := List.splitOn_append_cons_self (a := ' ') [] (text ++ [' '])
  rw [List.nil_append, List.splitOn_append_cons_self] at hfront
  exact hfront

/-- Every piece behind a space: the text itself behind one. -/
lemma flatMap_splitOn (text : List Char) :
    (text.splitOn ' ').flatMap (' ' :: ·) = ' ' :: text := by
  obtain ⟨piece, more, hpieces⟩ := List.exists_cons_of_ne_nil (List.splitOn_ne_nil ' ' text)
  have hjoin : [' '].intercalate (text.splitOn ' ') = text := List.intercalate_splitOn ' '
  rw [hpieces, intercalate_space] at hjoin
  rw [hpieces, List.flatMap_cons, List.cons_append, hjoin]

/-- **A padded text is found in another exactly if its pieces stand there in a
row.** -/
theorem padded_infix_iff {text inner : List Char} :
    padded inner <:+: padded text ↔ inner.splitOn ' ' <:+: text.splitOn ' ' := by
  constructor
  · rintro ⟨before, behind, happ⟩
    have hpieces : before.splitOn ' ' ++ (inner.splitOn ' ' ++ behind.splitOn ' ') =
        [] :: (text.splitOn ' ' ++ [[]]) := by
      rw [← splitOn_padded, ← happ, ← List.splitOn_append_cons_self,
        ← List.splitOn_append_cons_self]
      simp [padded]
    obtain ⟨first, front, hfront⟩ := List.exists_cons_of_ne_nil (List.splitOn_ne_nil ' ' before)
    obtain ⟨back, last, hback⟩ :=
      (List.eq_nil_or_concat' (behind.splitOn ' ')).resolve_left (List.splitOn_ne_nil ' ' behind)
    rw [hfront, hback, List.cons_append] at hpieces
    -- the pads belong to the pieces at the ends, which are left out on both sides
    have hinner : (front ++ (inner.splitOn ' ' ++ back)) ++ [last] = text.splitOn ' ' ++ [[]] := by
      simpa using (List.cons.inj hpieces).2
    exact ⟨front, back, by simpa using (List.append_inj' hinner rfl).1⟩
  · rintro ⟨front, back, happ⟩
    -- a blank follows in any case: it begins the next piece, or it is the pad
    obtain ⟨rest, hrest⟩ : ∃ rest, back.flatMap (' ' :: ·) ++ [' '] = ' ' :: rest := by
      cases back with
      | nil => exact ⟨[], rfl⟩
      | cons piece back => exact ⟨_, rfl⟩
    refine ⟨front.flatMap (' ' :: ·), rest, ?_⟩
    calc front.flatMap (' ' :: ·) ++ padded inner ++ rest
        = front.flatMap (' ' :: ·) ++ (' ' :: inner) ++ (' ' :: rest) := by simp [padded]
      _ = (front ++ inner.splitOn ' ' ++ back).flatMap (' ' :: ·) ++ [' '] := by
          rw [← hrest, ← flatMap_splitOn, List.flatMap_append, List.flatMap_append]
          simp
      _ = padded text := by rw [happ, flatMap_splitOn, padded, List.cons_append]

/-- What is found in a normalized text between two spaces: one of its words, several
of its words in a row with single spaces between them, or nothing where there are
no words. -/
theorem padded_infix_normalizeSpace_iff {text inner : List Char} :
    padded inner <:+: padded (normalizeSpace text) ↔
      inner ∈ words text ∨ (inner = [] ∧ words text = []) ∨
        ∃ row, 2 ≤ row.length ∧ row <:+: words text ∧ inner = [' '].intercalate row := by
  have hspace : ∀ word ∈ words text, ' ' ∉ word := by
    intro word hword hmem
    simpa [isXmlSpace] using (mem_words hword).2 ' ' hmem
  have hjoin : [' '].intercalate (inner.splitOn ' ') = inner := List.intercalate_splitOn ' '
  rw [padded_infix_iff, splitOn_normalizeSpace]
  constructor
  · split_ifs with hnil
    · -- without words the normalized text is empty, and holds the empty text only
      intro hrow
      have hle : [([] : List Char)].length ≤ (inner.splitOn ' ').length :=
        List.length_pos_iff.mpr (List.splitOn_ne_nil ' ' inner)
      rw [hrow.eq_of_length_le hle] at hjoin
      exact .inr (.inl ⟨hjoin.symm, hnil⟩)
    · intro hrow
      -- a blank inside `inner` makes it a row of words, and else it is one word
      by_cases hone : 2 ≤ (inner.splitOn ' ').length
      · exact .inr (.inr ⟨_, hone, hrow, hjoin.symm⟩)
      · obtain ⟨piece, more, hpieces⟩ := List.exists_cons_of_ne_nil (List.splitOn_ne_nil ' ' inner)
        obtain rfl : more = [] := by
          rw [hpieces, List.length_cons] at hone
          exact List.eq_nil_of_length_eq_zero (by omega)
        rw [hpieces, List.intercalate_singleton] at hjoin
        rw [hpieces, hjoin] at hrow
        exact .inl (hrow.subset List.mem_cons_self)
  · rintro (hword | ⟨rfl, hnil⟩ | ⟨row, hlength, hrow, rfl⟩)
    · rw [if_neg (List.ne_nil_of_mem hword), List.splitOn_eq_singleton (hspace inner hword)]
      obtain ⟨front, back, happ⟩ := List.append_of_mem hword
      exact ⟨front, back, by simp [happ]⟩
    · exact ⟨[], [], by simp [hnil]⟩
    · have hne : row ≠ [] := by
        rintro rfl
        simp at hlength
      have hwords : words text ≠ [] := by
        intro hnil
        exact hne (List.infix_nil.mp (hnil ▸ hrow))
      rw [if_neg hwords, List.splitOn_intercalate ' ' (fun w hw => hspace w (hrow.subset hw)) hne]
      exact hrow

/-- There is a space between words in a row. -/
lemma space_mem_intercalate {row : List (List Char)} (h : 2 ≤ row.length) :
    ' ' ∈ [' '].intercalate row := by
  match row, h with
  | first :: second :: row, _ => simp [intercalate_space]

/-- Several words in a row are not one word. -/
lemma intercalate_not_mem_words {text : List Char} {row : List (List Char)}
    (h : 2 ≤ row.length) : [' '].intercalate row ∉ words text := by
  intro hmem
  simpa [isXmlSpace] using (mem_words hmem).2 ' ' (space_mem_intercalate h)

end SelectorPath.Text
