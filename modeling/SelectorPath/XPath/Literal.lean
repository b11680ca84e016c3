/-
String literals of XPath.

A literal stands between two equal quotation marks and cannot contain its own
mark. A text with marks of both kinds is therefore written as a concatenation:
its pieces between the double marks, and the double marks themselves between
single ones.
-/
import SelectorPath.Text.Quote

namespace SelectorPath.XPath

/-- The text between two double quotation marks. -/
def doubleQuoted (text : List Char) : String := "\"" ++ String.ofList text ++ "\""

/-- An expression for the given text. -/
def literal (value : String) : String :=
  if !value.toList.contains '"' then doubleQuoted value.toList
  else if !value.toList.contains '\'' then "'" ++ value ++ "'"
  else
    "concat(" ++
      ", '\"', ".intercalate ((Text.pieces '"' value.toList).map doubleQuoted) ++ ")"

end SelectorPath.XPath
