/-
Node tests: which elements a step looks at, by name.
-/

namespace SelectorPath

/-- Which elements a step looks at. -/
inductive NodeTest where
  /-- Every element. -/
  | any
  /-- The elements of one name. -/
  | named (name : String)
  deriving DecidableEq

/-- The node test as it is written. -/
def NodeTest.text : NodeTest → String
  | .any => "*"
  | .named name => name

/-- The node test that is written this way. -/
def NodeTest.ofText (text : String) : NodeTest :=
  if text = "*" then .any else .named text

@[simp] theorem NodeTest.text_ofText (text : String) : (ofText text).text = text := by
  rw [ofText]
  split
  · next h => exact h.symm
  · rfl

end SelectorPath
