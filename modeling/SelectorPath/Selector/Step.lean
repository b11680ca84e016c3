/-
From a segment to a step of a path.

* `AttributeTest.condition`: what an attribute test asks of an element.
* `PseudoClass`: the pseudo-classes that are known, by name.
* `Segment.pseudoTest`: what a pseudo-class asks, with the node test it leaves.
  The selectors inside `:has` and `:not` are handed to a compiler of their own.
* `Segment.toStep`: the step, which asks for the id, the classes, the attribute
  tests and the pseudo-class in this order.
-/
import SelectorPath.Selector.Error
import SelectorPath.Selector.Positions
import SelectorPath.Selector.Segment
import SelectorPath.Text.Nesting
import SelectorPath.XPath.Path

namespace SelectorPath

open XPath

/-- The attribute is a list of tokens, and this is one of them. -/
def tokenCondition (name token : String) : Condition :=
  .contains
    (.concatenation (.literal " ") (.normalized (.attributeValue name)) (.literal " "))
    (.literal (" " ++ token ++ " "))

/-- What an attribute test asks of an element. A comparison that came without
its value compares with the empty text. -/
def AttributeTest.condition (test : AttributeTest) : Condition :=
  let value := test.value.getD ""
  let nameStarts := Condition.startsWith .nodeName (.literal test.name)
  let attributeIs := Condition.equal ⟨.close, .attributeValue test.name, .literal value⟩
  match test.op with
  | .plain => if test.value.isSome then attributeIs else .hasAttribute test.name
  | .namePrefix =>
    if test.value.isSome then .someAttributeIs nameStarts value else .someAttribute nameStarts
  | .absent => .negation (.hasAttribute test.name)
  | .startsWith => .startsWith (.attributeValue test.name) (.literal value)
  | .endsWith => .endsWith (.attributeValue test.name) (.literal value)
  | .contains => .contains (.attributeValue test.name) (.literal value)
  | .notEquals => .negation attributeIs
  | .includes => tokenCondition test.name value

/-- The pseudo-classes that are known. -/
inductive PseudoClass where
  | firstChild
  | lastChild
  | empty
  | notEmpty
  | nthChild
  | nthOfType
  | contains
  | has
  | not
  deriving DecidableEq

namespace PseudoClass

/-- All pseudo-classes. -/
def all : List PseudoClass :=
  [.firstChild, .lastChild, .empty, .notEmpty, .nthChild, .nthOfType, .contains, .has, .not]

/-- The name of a pseudo-class. -/
def name : PseudoClass → String
  | .firstChild => "first-child"
  | .lastChild => "last-child"
  | .empty => "empty"
  | .notEmpty => "not-empty"
  | .nthChild => "nth-child"
  | .nthOfType => "nth-of-type"
  | .contains => "contains"
  | .has => "has"
  | .not => "not"

/-- The pseudo-class of a name. -/
def ofName? (name : String) : Option PseudoClass := all.find? fun p => p.name == name

end PseudoClass

namespace Pseudo

/-- The argument of a pseudo-class that needs one. -/
def requiredArgument (pseudo : Pseudo) : Except Cause String :=
  match pseudo.argument with
  | none => .error (.missingArgument pseudo.name)
  | some argument =>
    if argument.isEmpty then .error (.missingArgument pseudo.name) else .ok argument

/-- The condition on the position that a pseudo-class asks for. -/
def positionCondition (pseudo : Pseudo) : Except Cause Condition := do
  let argument ← requiredArgument pseudo
  match Positions.ofText? argument with
  | some positions => .ok positions.condition
  | none => .error (.invalidPositions argument)

/-- The condition of `:contains`: the text of the element is the first part of
the argument, with regard to case if the second part says so. -/
def containsCondition (pseudo : Pseudo) : Except Cause Condition := do
  let argument ← requiredArgument pseudo
  match Text.cutTopLevel ',' argument.toList with
  | none => .error .openContains
  | some (first, more) =>
    let text := String.ofList (Text.unquote (Text.trim first))
    if more.head?.map Text.trim = some ['t', 'r', 'u', 'e'] then
      .ok (.equal ⟨.wide, .texts, .literal text⟩)
    else .ok (.caseless text)

end Pseudo

namespace Segment

/-- A compiler for the selectors inside a pseudo-class. -/
abbrev Nested := List Char → Except Error (List Path)

/-- The position counted among all siblings: the element name becomes a
condition, since the step must look at every element. -/
def siblingCondition (test : NodeTest) (position : Condition) : Condition :=
  match test with
  | .any => position
  | .named name =>
    .conjunction (.group (.equal ⟨.close, .nodeName, .literal name⟩)) (.group position)

/-- What a known pseudo-class asks of the elements under a node test, and the
node test that the step is left with. -/
def knownTest (nested : Nested) (source : String) (test : NodeTest) (pseudo : Pseudo) :
    PseudoClass → Except Error (NodeTest × Predicate)
  | .firstChild => .ok (test, .holds (.compare .equal .position (.integer 1)))
  | .lastChild => .ok (test, .holds (.compare .equal .position .last))
  | .empty => .ok (test, .holds (.compare .equal .descendants (.integer 0)))
  | .notEmpty => .ok (test, .holds (.compare .above .descendants (.integer 0)))
  | .nthChild => do
    let position ← Error.blame source pseudo.positionCondition
    return (.any, .holds (siblingCondition test position))
  | .nthOfType => do
    let position ← Error.blame source pseudo.positionCondition
    return (test, .holds position)
  | .contains => do
    let condition ← Error.blame source pseudo.containsCondition
    return (test, .holds condition)
  | .has => do
    let inner ← Error.blame source pseudo.requiredArgument
    let paths ← nested inner.toList
    return (test, .reaches paths)
  | .not => do
    let inner ← Error.blame source pseudo.requiredArgument
    let paths ← nested inner.toList
    return (test, .avoids paths)

/-- What a pseudo-class asks of the elements under a node test, if it is
known. -/
def pseudoTest (nested : Nested) (source : String) (test : NodeTest) (pseudo : Pseudo) :
    Except Error (NodeTest × Predicate) :=
  match PseudoClass.ofName? pseudo.name with
  | some known => knownTest nested source test pseudo known
  | none => .error (.unsupported pseudo.name)

/-- What the id, the classes and the attribute tests ask of an element. -/
def conditions (s : Segment) : List Condition :=
  s.id.toList.map (fun id => .equal ⟨.close, .attributeValue "id", .literal id⟩) ++
    s.classes.map (tokenCondition "class") ++ s.attributes.map AttributeTest.condition

/-- The step for a segment. Errors are laid to `source`. -/
def toStep (nested : Nested) (source : String) (axis : Axis) (s : Segment) :
    Except Error Step :=
  match s.pseudo with
  | some pseudo => do
    let (test, predicate) ← pseudoTest nested source (s.tag.getD .any) pseudo
    return ⟨axis, test, s.conditions.map .holds ++ [predicate]⟩
  | none =>
    if s.tag.isNone && s.conditions.isEmpty then .error (.malformed source .bareStep)
    else .ok ⟨axis, s.tag.getD .any, s.conditions.map .holds⟩

end Segment

end SelectorPath
