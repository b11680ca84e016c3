/-
Reading the body of an attribute test, the text between `[` and `]`.

* `AttributeTest.ofBody`: the test a body stands for, or what is wrong with it.
* `AttributeTest.splitValue`: the text before the first `=`, and the value
  after it without quotation marks.
* `Operator.ofMark?`: the comparison a mark before `=` stands for.
-/
import SelectorPath.Selector.Error
import SelectorPath.Selector.Segment
import SelectorPath.Text.Quote
import SelectorPath.Text.Space

namespace SelectorPath

/-- The comparison that a mark before `=` stands for. -/
def Operator.ofMark? : Char → Option Operator
  | '^' => some .startsWith
  | '$' => some .endsWith
  | '*' => some .contains
  | '!' => some .notEquals
  | '~' => some .includes
  | _ => none

namespace AttributeTest

/-- The text before the first `=` and the value after it, trimmed and without
a surrounding pair of quotation marks. -/
def splitValue (body : List Char) : List Char × Option String :=
  match body.dropWhile (· != '=') with
  | [] => (body, none)
  | _ :: value =>
    (body.takeWhile (· != '='), some (String.ofList (Text.unquote (Text.trim value))))

/-- The operator in front of a name, and the name after it. -/
def leadingOperator : List Char → Operator × List Char
  | '^' :: name => (.namePrefix, name)
  | '!' :: name => (.absent, name)
  | name => (.plain, name)

/-- The operator behind a name, and the name before it. -/
def trailingOperator (name : List Char) : Option (Operator × List Char) :=
  name.getLast?.bind fun mark =>
    (Operator.ofMark? mark).map fun op => (op, name.dropLast)

/-- The operator of a test and its name, which has at most one operator on its
two sides together. -/
def splitOperator (body label : List Char) : Except Cause (Operator × List Char) :=
  let (op, name) := leadingOperator label
  match trailingOperator name with
  | none => .ok (op, name)
  | some (comparison, name) =>
    if op = .plain then .ok (comparison, name)
    else .error (.mixedOperators (String.ofList body))

/-- A symbol of an attribute name. -/
def isNameSymbol (c : Char) : Bool := Symbol.isName c || c == ':'

/-- The test, if its parts go together. -/
def checked (body name : List Char) (op : Operator) (value : Option String) :
    Except Cause AttributeTest :=
  if name.isEmpty then .error .missingAttribute
  else if !name.all isNameSymbol then .error (.invalidAttribute (String.ofList name))
  else if op.needsValue && value.isNone then .error (.missingValue (String.ofList body))
  else if op = .absent && value.isSome then .error (.needlessValue (String.ofList body))
  else .ok ⟨String.ofList name, op, value⟩

/-- The test that a body stands for. -/
def ofBody (body : List Char) : Except Cause AttributeTest := do
  let (label, value) := splitValue body
  let (op, name) ← splitOperator body (Text.trim label)
  checked body (Text.trimEnd name) op value

end AttributeTest

end SelectorPath
