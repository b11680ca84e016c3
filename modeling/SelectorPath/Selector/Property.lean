/-
Reading the property at the end of a clause, the text after `::`.

* `Property.read`: `text`, or `attr` with attribute names between `|`.
-/
import SelectorPath.Selector.Argument
import SelectorPath.Text.Space
import SelectorPath.XPath.Path

namespace SelectorPath.XPath.Property

/-- The attribute names in an argument. Names may be quoted, and empty ones do
not count. -/
def names (argument : List Char) : List String :=
  ((Text.pieces '|' argument).map fun piece => Text.unquote (Text.trim piece)).filter
    (!·.isEmpty) |>.map String.ofList

/-- The property of a name, with or without an argument. -/
def ofName (name : String) (argument : Option (List Char)) : Except Cause Property :=
  if name = "text" then
    if argument.isSome then .error .needlessArgument else .ok .text
  else if name = "attr" then
    match names (argument.getD []) with
    | [] => .error .missingNames
    | names => .ok (.attributes names)
  else .error (.unknownProperty name)

/-- The property that a text stands for. -/
def read (source : List Char) : Except Cause Property :=
  match Text.readName (Text.trim source) with
  | none => .error .missingProperty
  | some (name, rest) => do
    let (argument, rest) ← Argument.read rest
    if rest.isEmpty then ofName (String.ofList name) argument
    else .error (.afterProperty (String.ofList name))

end SelectorPath.XPath.Property
