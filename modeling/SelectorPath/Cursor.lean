/-
A cursor over the bytes of a text.

The cursor counts in bytes of the UTF-8 form, so it can come to stand inside a
character. It still looks at single bytes there, but a call that has to give
text from there on fails: no text begins inside a character.

* `Cursor`: the bytes and a position within them.
* `Cursor.Op`, `Cursor.Reply`, `Cursor.step`: the calls and their answers.
* `Cursor.run`: a session, which ends with the first call that fails.
-/
import SelectorPath.Text.Nesting

namespace SelectorPath

/-- A position within the bytes of a text. -/
structure Cursor where
  /-- All bytes of the text. -/
  bytes : List UInt8
  /-- The number of bytes before the cursor. -/
  position : Nat
  /-- The cursor does not stand behind the end. -/
  position_le : position ≤ bytes.length

namespace Cursor

/-- The cursor at the beginning of a text. -/
def ofText (text : String) : Cursor := ⟨text.toUTF8.toList, 0, Nat.zero_le _⟩

/-- The bytes from the cursor on. -/
def rest (c : Cursor) : List UInt8 := c.bytes.drop c.position

/-- The next byte. -/
def peek (c : Cursor) : Option UInt8 := c.rest.head?

/-- The cursor stands at the end. -/
def isAtEnd (c : Cursor) : Bool := c.position == c.bytes.length

/-- The cursor some bytes further on, at most at the end. -/
def advance (c : Cursor) (n : Nat) : Cursor :=
  ⟨c.bytes, min (c.position + n) c.bytes.length, Nat.min_le_right _ _⟩

/-- The cursor where only `after` is left to its right. -/
def before (c : Cursor) (after : List UInt8) : Cursor :=
  c.advance (c.rest.length - after.length)

/-- What is left to the right is what was asked for. -/
theorem rest_before {c : Cursor} {after : List UInt8} (h : after <:+ c.rest) :
    (c.before after).rest = after := by
  obtain ⟨read, hread⟩ := h
  have hlen : c.rest.length = c.bytes.length - c.position := List.length_drop
  have hread' : c.rest.length = read.length + after.length := by
    rw [← hread, List.length_append]
  have hle := c.position_le
  have hpos : min (c.position + (c.rest.length - after.length)) c.bytes.length =
      c.position + read.length := by omega
  show c.bytes.drop (min (c.position + (c.rest.length - after.length)) c.bytes.length) = after
  rw [hpos, ← List.drop_drop]
  show c.rest.drop read.length = after
  rw [← hread, List.drop_left]

/-- The cursor after the byte `b`, if that is the next one. -/
def eat (c : Cursor) (b : UInt8) : Option Cursor :=
  if c.peek = some b then some (c.advance 1) else none

/-- The cursor after the blanks in front of it. -/
def skipBlanks (c : Cursor) : Cursor := c.before (Text.skipBlanks c.rest)

/-- The text that some bytes are the UTF-8 form of. -/
def decode? (bytes : List UInt8) : Option String := String.fromUTF8? ⟨bytes.toArray⟩

/-- The calls on a cursor. -/
inductive Op where
  /-- Look at the next byte. -/
  | peek
  /-- Ask for the end. -/
  | isAtEnd
  /-- Take all text from the cursor on, without moving. -/
  | remaining
  /-- Move on by a number of bytes. -/
  | advance (n : Nat)
  /-- Move over a byte if it is the next one. -/
  | eat (b : UInt8)
  /-- Move over blanks. -/
  | skipBlanks
  /-- Read a name. -/
  | readName
  /-- Read the body of an attribute test and move over its bracket. -/
  | readBracketed
  /-- Read an argument and move over its parenthesis. -/
  | readParenthesized

/-- The answers to calls on a cursor. -/
inductive Reply where
  /-- Nothing to tell. -/
  | done
  /-- The next byte. -/
  | byte (b : Option UInt8)
  /-- Yes or no. -/
  | truth (b : Bool)
  /-- A number of bytes. -/
  | count (n : Nat)
  /-- A text, if there was one to read. -/
  | text (s : Option String)
  deriving DecidableEq

/-- The answer to a call that reads text, given what was read and what is left
after it. The call fails if the bytes that were read are no text. -/
def reading (c : Cursor) : Option (List UInt8 × List UInt8) → Option (Reply × Cursor)
  | none => some (.text none, c)
  | some (bytes, after) => (decode? bytes).map fun s => (.text (some s), c.before after)

/-- The answer to a call and the cursor after it, unless the call fails. -/
def step (c : Cursor) : Op → Option (Reply × Cursor)
  | .peek => some (.byte c.peek, c)
  | .isAtEnd => some (.truth c.isAtEnd, c)
  | .remaining => (decode? c.rest).map fun s => (.text (some s), c)
  | .advance n => some (.done, c.advance n)
  | .eat b => some (.truth (c.eat b).isSome, (c.eat b).getD c)
  | .skipBlanks => some (.count (c.skipBlanks.position - c.position), c.skipBlanks)
  | .readName => c.reading (Text.readName c.rest)
  | .readBracketed => c.reading (Text.readBracketed c.rest)
  | .readParenthesized => c.reading (Text.readParenthesized c.rest)

/-- The answers of a session, each with the position after it. A call that
fails is the last one, and has no answer. -/
def run (c : Cursor) : List Op → List (Option (Reply × Nat))
  | [] => []
  | op :: ops =>
    match c.step op with
    | none => [none]
    | some (reply, c') => some (reply, c'.position) :: run c' ops

end Cursor

end SelectorPath
