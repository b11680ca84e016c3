/-
Symbols, the units in which a text is scanned.

The same text can be read by characters or by the bytes of its UTF-8 form. A
scan only asks for the code of a symbol, and every mark that matters to it is
ASCII, where both readings have the same code. So the scans of this library
are written once, for any type of symbols.

* `Symbol.is`, `Symbol.isAnyOf`: comparison with ASCII marks.
* `Symbol.isBlank`, `Symbol.isName`: the blanks between the parts of a
  selector, and the symbols a name is made of.
* `Text.readName`, `Text.skipBlanks`: the longest run of either at the front.
-/

namespace SelectorPath

/-- A unit of text, known to a scan by its code. -/
class Symbol (α : Type) where
  /-- The code point of a character, the value of a byte. -/
  code : α → Nat

instance : Symbol Char := ⟨Char.toNat⟩

instance : Symbol UInt8 := ⟨UInt8.toNat⟩

namespace Symbol

variable {α : Type} [Symbol α]

/-- The symbol is the mark `c`. -/
def is (c : Char) (a : α) : Bool := code a == c.toNat

/-- The symbol is one of the marks `cs`. -/
def isAnyOf (cs : List Char) (a : α) : Bool := cs.any fun c => is c a

/-- Blanks separate the parts of a selector: space, tab, line feed, carriage
return and form feed, and nothing beyond ASCII. -/
def isBlank (a : α) : Bool :=
  code a == 0x20 || code a == 0x09 || code a == 0x0A || code a == 0x0D || code a == 0x0C

/-- Names are made of ASCII letters and digits, `_`, `-` and everything beyond
ASCII. -/
def isName (a : α) : Bool :=
  (0x41 ≤ code a && code a ≤ 0x5A) || (0x61 ≤ code a && code a ≤ 0x7A) ||
    (0x30 ≤ code a && code a ≤ 0x39) || code a == 0x5F || code a == 0x2D || 0x80 ≤ code a

@[simp] theorem is_char {c d : Char} : is c d = true ↔ d = c := by
  simp only [is, code, beq_iff_eq]
  exact ⟨fun h => Char.toNat_inj.mp h, fun h => h ▸ rfl⟩

end Symbol

namespace Text

variable {α : Type} [Symbol α]

/-- The text after its leading blanks. -/
def skipBlanks (text : List α) : List α := text.dropWhile Symbol.isBlank

/-- The longest run of name symbols at the front, with the text after it. An
empty run is no name. -/
def readName (text : List α) : Option (List α × List α) :=
  match text.takeWhile Symbol.isName with
  | [] => none
  | a :: name => some (a :: name, text.dropWhile Symbol.isName)

/-! ### Nothing is lost, and a reader moves forward -/

theorem skipBlanks_suffix (text : List α) : skipBlanks text <:+ text :=
  List.dropWhile_suffix _

theorem length_skipBlanks_le (text : List α) : (skipBlanks text).length ≤ text.length :=
  (skipBlanks_suffix text).length_le

/-- A name is as long as it can be, and not empty. -/
theorem readName_eq_some {text name rest : List α} (h : readName text = some (name, rest)) :
    name = text.takeWhile Symbol.isName ∧ rest = text.dropWhile Symbol.isName ∧ name ≠ [] := by
  rw [readName] at h
  split at h
  · simp at h
  · next hrun =>
    obtain ⟨rfl, rfl⟩ := by simpa using h
    exact ⟨hrun.symm, rfl, List.cons_ne_nil _ _⟩

/-- A name and the text after it make up the text. -/
theorem append_of_readName {text name rest : List α} (h : readName text = some (name, rest)) :
    name ++ rest = text := by
  obtain ⟨rfl, rfl, -⟩ := readName_eq_some h
  exact List.takeWhile_append_dropWhile

/-- A name takes something off the text. -/
theorem length_of_readName {text name rest : List α} (h : readName text = some (name, rest)) :
    rest.length < text.length := by
  have hne := (readName_eq_some h).2.2
  have happ := append_of_readName h
  have hpos := List.length_pos_iff.mpr hne
  rw [← happ, List.length_append]
  omega

end Text

end SelectorPath
