/-
Groups and quotations in a text.

One pass from left to right carries how many groups are open and whether a
quotation is. Quotation marks hide everything up to their closing mark, and a
closing bracket at depth zero changes nothing. Three questions are answered by
that pass:

* `Text.readGroup`: where the group ends whose opening bracket has just been
  read;
* `Text.splitTopLevel`: the pieces between the delimiters outside all groups
  and quotations;
* `Text.lastTopLevel`: the last place of a pattern outside all groups and
  quotations.

What opens and what closes a group is a `Grouping`: attribute tests do not
nest, pseudo-class arguments nest in parentheses, and the top level of a
selector is outside brackets of both kinds.
-/
import SelectorPath.Text.Quote

namespace SelectorPath

/-- The brackets that open and the brackets that close a group. -/
structure Grouping where
  /-- Marks that open a group. -/
  opening : List Char
  /-- Marks that close a group. -/
  closing : List Char

namespace Grouping

/-- An attribute test ends at the first `]`; no `[` inside it opens another. -/
def square : Grouping := ⟨[], [']']⟩

/-- Arguments nest in parentheses. -/
def round : Grouping := ⟨['('], [')']⟩

/-- Parentheses and square brackets together, counted alike. -/
def any : Grouping := ⟨['(', '['], [')', ']']⟩

end Grouping

/-- What a pass from left to right has open. -/
structure Nesting where
  /-- The number of open groups. -/
  depth : Nat
  /-- The open quotation. -/
  quote : Option Quote
  deriving DecidableEq

namespace Nesting

variable {α : Type} [Symbol α]

/-- Nothing is open. -/
def top : Nesting := ⟨0, none⟩

/-- What is open after one more symbol. -/
def step (g : Grouping) (s : Nesting) (a : α) : Nesting :=
  match s.quote with
  | some q => if Quote.of? a = some q then ⟨s.depth, none⟩ else s
  | none =>
    match Quote.of? a with
    | some q => ⟨s.depth, some q⟩
    | none =>
      if Symbol.isAnyOf g.opening a then ⟨s.depth + 1, none⟩
      else if Symbol.isAnyOf g.closing a then ⟨s.depth - 1, none⟩
      else s

/-- The symbol closes a group that was open before the pass began. -/
def closedBy (g : Grouping) (s : Nesting) (a : α) : Bool :=
  s.depth == 0 && s.quote.isNone && Symbol.isAnyOf g.closing a

/-- The symbol stands outside all groups and quotations and is no bracket or
quotation mark itself. -/
def exposes (g : Grouping) (s : Nesting) (a : α) : Bool :=
  s.depth == 0 && s.quote.isNone && (Quote.of? a).isNone &&
    !Symbol.isAnyOf g.opening a && !Symbol.isAnyOf g.closing a

end Nesting

namespace Text

variable {α : Type} [Symbol α]

/-- The text up to the bracket that closes the enclosing group, and the text
after that bracket. There is no such bracket if the group is left open. -/
def readGroup (g : Grouping) (s : Nesting) : List α → Option (List α × List α)
  | [] => none
  | a :: rest =>
    if s.closedBy g a then some ([], rest)
    else (readGroup g (s.step g a) rest).map fun (body, after) => (a :: body, after)

/-- The body of an attribute test, up to its `]`. -/
def readBracketed (text : List α) : Option (List α × List α) :=
  readGroup .square .top text

/-- The argument of a pseudo-class or property, up to its `)`. -/
def readParenthesized (text : List α) : Option (List α × List α) :=
  readGroup .round .top text

/-- The piece before the first exposed delimiter and the pieces after it, read
with `s` open. A text that ends inside a quotation is in no pieces. -/
def cut (delimiter : Char) (s : Nesting) : List α → Option (List α × List (List α))
  | [] => if s.quote.isNone then some ([], []) else none
  | a :: rest =>
    (cut delimiter (s.step .any a) rest).map fun (piece, more) =>
      if s.exposes .any a && Symbol.is delimiter a then ([], piece :: more)
      else (a :: piece, more)

/-- The first piece of a text cut at its top-level delimiters, and the other
pieces in order. -/
def cutTopLevel (delimiter : Char) (text : List α) : Option (List α × List (List α)) :=
  cut delimiter .top text

/-- All pieces of a text cut at its top-level delimiters. -/
def splitTopLevel (delimiter : Char) (text : List α) : Option (List (List α)) :=
  (cutTopLevel delimiter text).map fun (piece, more) => piece :: more

/-- The last exposed place where `pattern` begins, read with `s` open. -/
def lastExposed [BEq α] (pattern : List α) (s : Nesting) : List α → Option Nat
  | [] => none
  | a :: rest =>
    match lastExposed pattern (s.step .any a) rest with
    | some i => some (i + 1)
    | none => if s.exposes .any a && pattern.isPrefixOf (a :: rest) then some 0 else none

/-- The last top-level place where `pattern` begins, counted in symbols. -/
def lastTopLevel [BEq α] (pattern text : List α) : Option Nat :=
  lastExposed pattern .top text

/-! ### Bodies, brackets and rests make up the text -/

/-- A group's body, its closing bracket and the text after it make up the
text. -/
theorem append_of_readGroup {g : Grouping} {s : Nesting} {text body rest : List α}
    (h : readGroup g s text = some (body, rest)) :
    ∃ a, Symbol.isAnyOf g.closing a = true ∧ text = body ++ a :: rest := by
  induction text generalizing s body with
  | nil => simp [readGroup] at h
  | cons a text ih =>
    rw [readGroup] at h
    split at h
    · next hclosed =>
      obtain ⟨rfl, rfl⟩ := by simpa using h
      simp only [Nesting.closedBy, Bool.and_eq_true] at hclosed
      exact ⟨a, hclosed.2, rfl⟩
    · obtain ⟨⟨body', rest'⟩, hread, heq⟩ := Option.map_eq_some_iff.mp h
      obtain ⟨rfl, rfl⟩ := by simpa using heq
      obtain ⟨c, hc, rfl⟩ := ih hread
      exact ⟨c, hc, rfl⟩

/-- Body and rest are together one symbol shorter than the text. -/
theorem length_of_readGroup {g : Grouping} {s : Nesting} {text body rest : List α}
    (h : readGroup g s text = some (body, rest)) :
    body.length + rest.length + 1 = text.length := by
  obtain ⟨a, -, rfl⟩ := append_of_readGroup h
  simp only [List.length_append, List.length_cons]
  omega

/-- No piece is longer than the text. -/
theorem length_le_of_mem_cut {delimiter : Char} {s : Nesting} {text piece : List α}
    {more : List (List α)} (h : cut delimiter s text = some (piece, more)) :
    ∀ p ∈ piece :: more, p.length ≤ text.length := by
  induction text generalizing s piece more with
  | nil =>
    rw [cut] at h
    split at h
    · obtain ⟨rfl, rfl⟩ := by simpa using h
      simp
    · simp at h
  | cons a text ih =>
    rw [cut] at h
    obtain ⟨⟨piece', more'⟩, hcut, heq⟩ := Option.map_eq_some_iff.mp h
    have hle := ih hcut
    intro p hp
    dsimp only at heq
    split at heq
    · obtain ⟨rfl, rfl⟩ := by simpa using heq
      rcases List.mem_cons.mp hp with rfl | hp
      · simp
      · exact Nat.le_succ_of_le (hle p hp)
    · obtain ⟨rfl, rfl⟩ := by simpa using heq
      rcases List.mem_cons.mp hp with rfl | hp
      · simpa using hle piece' List.mem_cons_self
      · exact Nat.le_succ_of_le (hle p (List.mem_cons_of_mem _ hp))

/-- No piece of a text is longer than the text. -/
theorem length_le_of_mem_splitTopLevel {delimiter : Char} {text : List α}
    {parts : List (List α)} (h : splitTopLevel delimiter text = some parts) :
    ∀ p ∈ parts, p.length ≤ text.length := by
  obtain ⟨⟨piece, more⟩, hcut, rfl⟩ := Option.map_eq_some_iff.mp h
  exact length_le_of_mem_cut hcut

end Text

end SelectorPath
