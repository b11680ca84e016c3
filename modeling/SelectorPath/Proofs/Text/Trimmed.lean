/-
Texts without white space around them.

* `Text.IsTrimmed`: neither the first nor the last symbol is white space.
* `Text.trim_eq_iff`: trimming finds the one trimmed text that is left when
  white space is taken away on both sides.
-/
import Mathlib.Data.List.DropRight
import Mathlib.Data.List.TakeWhile
import Mathlib.Tactic.Lemma
import SelectorPath.Text.Space

namespace SelectorPath.Text

/-- All symbols of the text are white space. -/
def IsSpaces (text : List Char) : Prop := ∀ c ∈ text, isSpace c = true

/-- There is no white space at the front of the text. -/
def StartsTrimmed (text : List Char) : Prop := ∀ c ∈ text.head?, isSpace c = false

/-- There is no white space at the end of the text. -/
def EndsTrimmed (text : List Char) : Prop := ∀ c ∈ text.getLast?, isSpace c = false

/-- There is no white space on either side of the text. -/
def IsTrimmed (text : List Char) : Prop := StartsTrimmed text ∧ EndsTrimmed text

-- the members of a text are looked at one by one, not all characters there are
instance (text : List Char) : Decidable (IsSpaces text) := List.decidableBAll _ text

instance (text : List Char) : Decidable (StartsTrimmed text) := Option.decidableForallMem text.head?

instance (text : List Char) : Decidable (EndsTrimmed text) :=
  Option.decidableForallMem text.getLast?

instance (text : List Char) : Decidable (IsTrimmed text) :=
  inferInstanceAs (Decidable (StartsTrimmed text ∧ EndsTrimmed text))

lemma dropWhile_of_startsTrimmed {text : List Char} (h : StartsTrimmed text) :
    text.dropWhile isSpace = text := by
  cases text with
  | nil => rfl
  | cons c text => simp [h c rfl]

/-- What is left does not begin with white space. -/
lemma startsTrimmed_trimStart (text : List Char) : StartsTrimmed (trimStart text) := by
  intro c hc
  have hhead := List.head?_dropWhile_not isSpace text
  rw [Option.mem_def, trimStart] at hc
  simpa [hc] using hhead

/-- White space in front of a text is taken away, and no more than that. -/
lemma trimStart_append {before text : List Char} (hbefore : IsSpaces before)
    (h : StartsTrimmed text) : trimStart (before ++ text) = text := by
  rw [trimStart, List.dropWhile_append_of_pos hbefore, dropWhile_of_startsTrimmed h]

/-- What is cut off is white space only. -/
lemma exists_trimStart (text : List Char) :
    ∃ before, text = before ++ trimStart text ∧ IsSpaces before :=
  ⟨text.takeWhile isSpace, List.takeWhile_append_dropWhile.symm,
    fun _ hc => List.mem_takeWhile_imp hc⟩

lemma trimEnd_eq (text : List Char) : trimEnd text = (trimStart text.reverse).reverse := rfl

/-- The end of a text is the beginning of its reverse. -/
lemma endsTrimmed_iff {text : List Char} : EndsTrimmed text ↔ StartsTrimmed text.reverse := by
  rw [EndsTrimmed, StartsTrimmed, List.head?_reverse]

/-- White space behind a text is taken away, and no more than that. -/
lemma trimEnd_append {text behind : List Char} (hbehind : IsSpaces behind)
    (h : EndsTrimmed text) : trimEnd (text ++ behind) = text := by
  have hspaces : IsSpaces behind.reverse := fun c hc => hbehind c (List.mem_reverse.mp hc)
  rw [trimEnd_eq, List.reverse_append, trimStart_append hspaces (endsTrimmed_iff.mp h),
    List.reverse_reverse]

lemma exists_trimEnd (text : List Char) :
    ∃ behind, text = trimEnd text ++ behind ∧ IsSpaces behind := by
  obtain ⟨before, happ, hbefore⟩ := exists_trimStart text.reverse
  refine ⟨before.reverse, ?_, fun c hc => hbefore c (List.mem_reverse.mp hc)⟩
  rw [trimEnd_eq, ← List.reverse_append, ← happ, List.reverse_reverse]

lemma endsTrimmed_trimEnd (text : List Char) : EndsTrimmed (trimEnd text) := by
  rw [endsTrimmed_iff, trimEnd_eq, List.reverse_reverse]
  exact startsTrimmed_trimStart _

/-- What is at the front of a text stays there when the end is trimmed. -/
lemma startsTrimmed_trimEnd {text : List Char} (h : StartsTrimmed text) :
    StartsTrimmed (trimEnd text) := by
  obtain ⟨rest, hrest⟩ := trimEnd_prefixed text
  intro c hc
  refine h c ?_
  rw [← hrest]
  cases htrim : trimEnd text with
  | nil => simp [htrim] at hc
  | cons d trimmed => simpa [htrim] using hc

/-- Trimming leaves white space on neither side. -/
lemma isTrimmed_trim (text : List Char) : IsTrimmed (trim text) :=
  ⟨startsTrimmed_trimEnd (startsTrimmed_trimStart text), endsTrimmed_trimEnd _⟩

/-- The first part decides, unless it is empty. -/
lemma startsTrimmed_append {left right : List Char} (hne : left ≠ []) :
    StartsTrimmed (left ++ right) ↔ StartsTrimmed left := by
  rw [StartsTrimmed, StartsTrimmed, List.head?_append_of_ne_nil _ hne]

lemma endsTrimmed_append {left right : List Char} (hne : right ≠ []) :
    EndsTrimmed (left ++ right) ↔ EndsTrimmed right := by
  rw [EndsTrimmed, EndsTrimmed, List.getLast?_append_of_ne_nil _ hne]

/-- No white space comes at the end of a trimmed text. -/
lemma eq_nil_of_endsTrimmed {text spaces : List Char} (hspaces : IsSpaces spaces)
    (h : EndsTrimmed (text ++ spaces)) : spaces = [] := by
  by_contra hne
  have hspace := hspaces _ (List.getLast_mem hne)
  have hlast := List.getLast?_eq_some_getLast hne
  have htrimmed := (endsTrimmed_append hne).mp h _ hlast
  simp [hspace] at htrimmed

/-- No white space comes at the front of a trimmed text. -/
lemma eq_nil_of_startsTrimmed {spaces text : List Char} (hspaces : IsSpaces spaces)
    (h : StartsTrimmed (spaces ++ text)) : spaces = [] := by
  cases spaces with
  | nil => rfl
  | cons c spaces =>
      have htrimmed := h c rfl
      simp [hspaces c List.mem_cons_self] at htrimmed

/-- Trimming leaves the trimmed text that stands between two runs of white
space. -/
theorem trim_eq_iff {text core : List Char} :
    trim text = core ↔
      IsTrimmed core ∧
        ∃ before behind, text = before ++ (core ++ behind) ∧ IsSpaces before ∧ IsSpaces behind := by
  constructor
  · rintro rfl
    obtain ⟨before, hstart, hbefore⟩ := exists_trimStart text
    obtain ⟨behind, hend, hbehind⟩ := exists_trimEnd (trimStart text)
    refine ⟨isTrimmed_trim text, before, behind, ?_, hbefore, hbehind⟩
    rw [trim, ← hend]
    exact hstart
  · rintro ⟨⟨hstarts, hends⟩, before, behind, rfl, hbefore, hbehind⟩
    -- the start is trimmed first, and takes all the spaces where there is nothing else
    cases core with
    | nil =>
        have hspaces : IsSpaces (before ++ ([] ++ behind)) := by
          intro c hc
          rcases List.mem_append.mp hc with hc | hc
          · exact hbefore c hc
          · exact hbehind c hc
        have hstart : trimStart (before ++ ([] ++ behind) ++ []) = [] :=
          trimStart_append hspaces (by simp [StartsTrimmed])
        rw [List.append_nil] at hstart
        rw [trim, hstart]
        rfl
    | cons c core =>
        have hstart : trimStart (before ++ (c :: core ++ behind)) = c :: core ++ behind :=
          trimStart_append hbefore hstarts
        rw [trim, hstart]
        exact trimEnd_append hbehind hends

end SelectorPath.Text
