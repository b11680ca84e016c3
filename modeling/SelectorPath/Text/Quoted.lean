/-
The quoted form of texts and characters, as messages show them.

* `Text.quoted`: a text between `"`.
* `Text.quotedChar`: a single character between `'`.

Inside either, NUL, tab, carriage return, line feed, the backslash and the
surrounding mark are written with a backslash, and an unprintable character by
its code point in hexadecimal digits.
-/
import SelectorPath.Text.Unprintable

namespace SelectorPath.Text

/-- The digits of a number to the base sixteen, without leading zeros. -/
def hexadecimal (n : Nat) : String := String.ofList (Nat.toDigits 16 n)

/-- The character inside a quoted form that is surrounded by `mark`. -/
def escaped (mark c : Char) : String :=
  if c.toNat = 0 then "\\0"
  else if c = '\t' then "\\t"
  else if c = '\r' then "\\r"
  else if c = '\n' then "\\n"
  else if c = '\\' then "\\\\"
  else if c = mark then String.ofList ['\\', c]
  else if isUnprintable c then "\\u\x7b" ++ hexadecimal c.toNat ++ "\x7d"
  else String.ofList [c]

/-- The text as a message shows it, between `"`. -/
def quoted (text : String) : String :=
  "\"" ++ String.join (text.toList.map (escaped '"')) ++ "\""

/-- The character as a message shows it, between `'`. -/
def quotedChar (c : Char) : String := "'" ++ escaped '\'' c ++ "'"

end SelectorPath.Text
