/-
Conditions on a node, the flat part of XPath predicates.

* `Number`: arithmetic over the position of the node among its candidates and
  the number of its descendants.
* `Value`: texts taken from the node, and functions on them.
* `Condition`: comparisons of either, combined with `not`, `and` and
  parentheses.
* `Folding`: the two ways of comparing texts without regard to case.
* `Condition.render`: the condition as it is written.

The spacing around `=` is a part of the written form. It is close after an
attribute and in a test of the element name, and wide everywhere else.
-/
import SelectorPath.XPath.Literal

namespace SelectorPath.XPath

/-- A number that depends on the node. -/
inductive Number where
  /-- The position of the node among its candidates, from one on. -/
  | position
  /-- The number of candidates. -/
  | last
  /-- The number of elements below the node. -/
  | descendants
  /-- A fixed number. -/
  | integer (i : Int)
  /-- The sum of two numbers, in parentheses. -/
  | sum (a b : Number)
  /-- The difference of two numbers, in parentheses. -/
  | difference (a b : Number)
  /-- The remainder of the division of two numbers. -/
  | remainder (a b : Number)
  deriving DecidableEq

/-- The number as it is written. -/
def Number.render : Number → String
  | .position => "position()"
  | .last => "last()"
  | .descendants => "count(descendant::*)"
  | .integer i => toString i
  | .sum a b => "(" ++ a.render ++ " + " ++ b.render ++ ")"
  | .difference a b => "(" ++ a.render ++ " - " ++ b.render ++ ")"
  | .remainder a b => a.render ++ " mod " ++ b.render

/-- A relation between numbers. -/
inductive Relation where
  | equal
  | atLeast
  | atMost
  | above
  deriving DecidableEq

/-- The relation as it is written. -/
def Relation.render : Relation → String
  | .equal => "="
  | .atLeast => ">="
  | .atMost => "<="
  | .above => ">"

/-- A text that depends on the node. -/
inductive Value where
  /-- The attribute of a name. -/
  | attributeValue (name : String)
  /-- A fixed text. -/
  | literal (value : String)
  /-- The name of the node. -/
  | nodeName
  /-- The whole text inside the node. -/
  | content
  /-- The texts directly below the node. -/
  | texts
  /-- A text without white space around it and with single spaces inside. -/
  | normalized (a : Value)
  /-- Three texts one after the other. -/
  | concatenation (a b c : Value)
  /-- A text in lower case. -/
  | lowered (a : Value)
  /-- A text with the characters of one alphabet replaced by those of another. -/
  | mapped (a : Value) (source target : String)
  deriving DecidableEq

/-- The text as it is written. -/
def Value.render : Value → String
  | .attributeValue name => "@" ++ name
  | .literal value => XPath.literal value
  | .nodeName => "name()"
  | .content => "."
  | .texts => "text()"
  | .normalized a => "normalize-space(" ++ a.render ++ ")"
  | .concatenation a b c =>
    "concat(" ++ a.render ++ ", " ++ b.render ++ ", " ++ c.render ++ ")"
  | .lowered a => "lower-case(" ++ a.render ++ ")"
  | .mapped a source target =>
    "translate(" ++ a.render ++ ", " ++ XPath.literal source ++ ", " ++
      XPath.literal target ++ ")"

/-- The spacing around `=`. -/
inductive Spacing where
  | close
  | wide
  deriving DecidableEq

/-- The sign of equality as it is written. -/
def Spacing.sign : Spacing → String
  | .close => "="
  | .wide => " = "

/-- The equality of two texts. -/
structure Equality where
  /-- The spacing it is written with. -/
  spacing : Spacing
  /-- What is compared. -/
  left : Value
  /-- What it is compared with. -/
  right : Value
  deriving DecidableEq

/-- The equality as it is written. -/
def Equality.render (e : Equality) : String :=
  e.left.render ++ e.spacing.sign ++ e.right.render

/-- How texts are compared without regard to case. -/
inductive Folding where
  /-- By a function that knows the case of every letter. -/
  | lowerCase
  /-- By replacing the capital letters of ASCII. -/
  | ascii
  deriving DecidableEq

/-- The capital letters of ASCII. -/
def capitals : String := "ABCDEFGHIJKLMNOPQRSTUVWXYZ"

/-- The small letters of ASCII, in the same order. -/
def smallLetters : String := "abcdefghijklmnopqrstuvwxyz"

/-- The text with small letters for the capital letters of ASCII. -/
def lowered (text : String) : String := String.ofList (text.toList.map Char.toLower)

/-- The whole text inside the node is `text` up to case. -/
def Folding.equality (text : String) : Folding → Equality
  | .lowerCase => ⟨.wide, .lowered .content, .lowered (.literal text)⟩
  | .ascii => ⟨.wide, .mapped .content capitals smallLetters, .literal (lowered text)⟩

/-- A condition on a node. -/
inductive Condition where
  /-- A relation between two numbers. -/
  | compare (relation : Relation) (a b : Number)
  /-- The equality of two texts. -/
  | equal (equality : Equality)
  /-- The whole text inside the node is `text` up to case. -/
  | caseless (text : String)
  /-- The first text begins with the second. -/
  | startsWith (a b : Value)
  /-- The first text ends with the second. -/
  | endsWith (a b : Value)
  /-- The first text contains the second. -/
  | contains (a b : Value)
  /-- The node has an attribute of this name. -/
  | hasAttribute (name : String)
  /-- Some attribute of the node is under the condition. -/
  | someAttribute (condition : Condition)
  /-- Some attribute of the node is under the condition and has the value. -/
  | someAttributeIs (condition : Condition) (value : String)
  /-- The condition does not hold. -/
  | negation (condition : Condition)
  /-- Both conditions hold. -/
  | conjunction (a b : Condition)
  /-- The condition, in parentheses. -/
  | group (condition : Condition)
  deriving DecidableEq

/-- The condition as it is written. -/
def Condition.render (folding : Folding) : Condition → String
  | .compare relation a b => a.render ++ " " ++ relation.render ++ " " ++ b.render
  | .equal equality => equality.render
  | .caseless text => (folding.equality text).render
  | .startsWith a b => "starts-with(" ++ a.render ++ ", " ++ b.render ++ ")"
  | .endsWith a b => "ends-with(" ++ a.render ++ ", " ++ b.render ++ ")"
  | .contains a b => "contains(" ++ a.render ++ ", " ++ b.render ++ ")"
  | .hasAttribute name => "@" ++ name
  | .someAttribute condition => "@*[" ++ condition.render folding ++ "]"
  | .someAttributeIs condition value =>
    "@*[" ++ condition.render folding ++ "]=" ++ literal value
  | .negation condition => "not(" ++ condition.render folding ++ ")"
  | .conjunction a b => a.render folding ++ " and " ++ b.render folding
  | .group condition => "(" ++ condition.render folding ++ ")"

end SelectorPath.XPath
