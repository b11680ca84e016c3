/-
Quotation marks in a text.

A mark of either kind opens a quotation that runs to the next mark of the same
kind. Marks of the other kind stand for themselves inside it.

* `Quote.of?`: the kind of a symbol, if it is a quotation mark at all.
* `Text.unquote`: without one pair of surrounding marks.
-/
import SelectorPath.Text.Symbol

namespace SelectorPath

/-- The two kinds of quotation mark. -/
inductive Quote where
  | single
  | double
  deriving DecidableEq

namespace Quote

variable {α : Type} [Symbol α]

/-- The kind of quotation mark that a symbol is, if it is one. -/
def of? (a : α) : Option Quote :=
  if Symbol.is '"' a then some .double
  else if Symbol.is '\'' a then some .single
  else none

end Quote

namespace Text

variable {α : Type} [Symbol α]

/-- The text without one pair of surrounding quotation marks of the same kind.
A lone mark is no pair. -/
def unquote (text : List α) : List α :=
  match text with
  | [] => []
  | a :: rest =>
    match Quote.of? a, rest.getLast?.bind Quote.of? with
    | some p, some q => if p = q then rest.dropLast else text
    | _, _ => text

/-- The pieces of a text between the marks `c`: one more than there are
marks. -/
def pieces (c : Char) : List Char → List (List Char)
  | [] => [[]]
  | a :: rest =>
    match pieces c rest with
    | [] => [[a]]
    | piece :: more => if a = c then [] :: piece :: more else (a :: piece) :: more

theorem pieces_ne_nil (c : Char) (text : List Char) : pieces c text ≠ [] := by
  cases text with
  | nil => simp [pieces]
  | cons a rest =>
    rw [pieces]
    split
    · simp
    · split <;> simp

end Text

end SelectorPath
