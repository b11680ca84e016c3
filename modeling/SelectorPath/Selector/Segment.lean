/-
Segments: compound selectors such as `li.item[data-id]:first-child`.

* `AttributeTest`, `Pseudo`: the parts of a segment, beside names.
* `Segment`: the parts together, with the combinator that links the segment to
  the one after it.
* `Operator.needsValue`: the comparisons that make no sense without a value.
-/
import SelectorPath.XPath.NodeTest

namespace SelectorPath

/-- How a segment is related to the one that follows it. -/
inductive Combinator where
  /-- Blanks: the next segment may be at any depth. -/
  | descendant
  /-- `>`: the next segment is a child. -/
  | child
  deriving DecidableEq

/-- The operator of an attribute test. -/
inductive Operator where
  /-- `[name]` or `[name=value]`. -/
  | plain
  /-- `[^name]`: some attribute name starts with `name`. -/
  | namePrefix
  /-- `[!name]`: the attribute is absent. -/
  | absent
  /-- `[name^=value]`. -/
  | startsWith
  /-- `[name$=value]`. -/
  | endsWith
  /-- `[name*=value]`. -/
  | contains
  /-- `[name!=value]`. -/
  | notEquals
  /-- `[name~=value]`: one token of a list separated by white space. -/
  | includes
  deriving DecidableEq

/-- The operator compares with a value and is nothing without one. -/
def Operator.needsValue : Operator → Bool
  | .plain | .namePrefix | .absent => false
  | .startsWith | .endsWith | .contains | .notEquals | .includes => true

/-- One test in square brackets. -/
structure AttributeTest where
  /-- The attribute's name, or the beginning of it. -/
  name : String
  /-- What is asked of the attribute. -/
  op : Operator
  /-- The value it is compared with. -/
  value : Option String
  deriving DecidableEq

/-- A pseudo-class `:name` or `:name(argument)`. -/
structure Pseudo where
  /-- The name after the colon. -/
  name : String
  /-- The text between the parentheses, as it stands there. -/
  argument : Option String
  deriving DecidableEq

/-- A compound selector. -/
structure Segment where
  /-- The element name, if one is given. -/
  tag : Option NodeTest := none
  /-- The name after `#`. -/
  id : Option String := none
  /-- The names after `.`, in order. -/
  classes : List String := []
  /-- The attribute tests, in order. -/
  attributes : List AttributeTest := []
  /-- The pseudo-class. -/
  pseudo : Option Pseudo := none
  /-- The relation to the next segment. -/
  combinator : Combinator := .descendant
  deriving DecidableEq

/-- The segment asks for more than an element name. -/
def Segment.isConstrained (s : Segment) : Bool :=
  s.id.isSome || !s.classes.isEmpty || !s.attributes.isEmpty || s.pseudo.isSome

end SelectorPath
