/-
White space around a text.

Trimming takes away every character with the Unicode property White_Space,
which is a larger set than the blanks that may stand between the parts of a
selector.

* `Text.isSpace`: the property, as a list of its code points.
* `Text.trimStart`, `Text.trimEnd`, `Text.trim`: without it on one or both
  sides.
-/

namespace SelectorPath.Text

/-- The Unicode property White_Space. -/
def isSpace (c : Char) : Bool :=
  (0x09 ≤ c.toNat && c.toNat ≤ 0x0D) || c.toNat == 0x20 || c.toNat == 0x85 ||
    c.toNat == 0xA0 || c.toNat == 0x1680 || (0x2000 ≤ c.toNat && c.toNat ≤ 0x200A) ||
    c.toNat == 0x2028 || c.toNat == 0x2029 || c.toNat == 0x202F || c.toNat == 0x205F ||
    c.toNat == 0x3000

/-- The text without leading white space. -/
def trimStart (text : List Char) : List Char := text.dropWhile isSpace

/-- The text without trailing white space. -/
def trimEnd (text : List Char) : List Char := (text.reverse.dropWhile isSpace).reverse

/-- The text without white space on either side. -/
def trim (text : List Char) : List Char := trimEnd (trimStart text)

/-! ### What is left is a part of the text -/

theorem trimStart_suffix (text : List Char) : trimStart text <:+ text :=
  List.dropWhile_suffix _

/-- What is left when the end is trimmed stands at the front. -/
theorem trimEnd_prefixed (text : List Char) : trimEnd text <+: text := by
  have h := List.dropWhile_suffix (l := text.reverse) isSpace
  simpa [trimEnd] using List.reverse_prefix.mpr h

theorem length_trimStart_le (text : List Char) : (trimStart text).length ≤ text.length :=
  (trimStart_suffix text).length_le

theorem length_trim_le (text : List Char) : (trim text).length ≤ text.length :=
  Nat.le_trans (trimEnd_prefixed (trimStart text)).length_le (length_trimStart_le text)

end SelectorPath.Text
