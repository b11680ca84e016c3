/-
Element templates: the element that a simple selector describes.

* `Template`: an element name and attributes, each name once and in the order
  in which they were first set.
* `Template.ofSelector`: the template of a single segment made of an element
  name, an id, classes and plain attribute tests.
* `Template.attribute?`: the value of an attribute.
-/
import SelectorPath.Selector.Segment.Reader

namespace SelectorPath

/-- An element to be made. -/
structure Template where
  /-- The element name. -/
  tag : String
  /-- The attributes with their values. -/
  attributes : List (String × String)
  deriving DecidableEq

namespace Template

/-- Attributes with one of them set. A new name goes to the end, a known one
keeps its place. -/
def set (name value : String) : List (String × String) → List (String × String)
  | [] => [(name, value)]
  | (n, v) :: rest => if n = name then (n, value) :: rest else (n, v) :: set name value rest

/-- Attributes with several of them set in turn. -/
def setAll (pairs attributes : List (String × String)) : List (String × String) :=
  pairs.foldl (fun attributes pair => set pair.1 pair.2 attributes) attributes

/-- The value of an attribute. -/
def attribute? (template : Template) (name : String) : Option String :=
  (template.attributes.find? fun pair => pair.1 == name).map Prod.snd

/-- Setting an attribute changes its own value only. -/
theorem find?_set (name value other : String) (attributes : List (String × String)) :
    ((set name value attributes).find? fun pair => pair.1 == other).map Prod.snd =
      if other = name then some value
      else (attributes.find? fun pair => pair.1 == other).map Prod.snd := by
  induction attributes with
  | nil =>
    by_cases h : other = name
    · simp [set, h]
    · simp [set, h, Ne.symm h]
  | cons pair rest ih =>
    obtain ⟨n, v⟩ := pair
    rw [set]
    by_cases hn : n = name
    · by_cases h : other = name
      · simp [hn, h]
      · simp [hn, h, Ne.symm h]
    · by_cases h : n = other
      · have : other ≠ name := fun heq => hn (h.trans heq)
        simp [h, this]
      · simp [hn, h, ih]

/-- The element name when the selector gives none. -/
def defaultTag : String := "div"

/-- The element name that a segment gives. -/
def tagOf : Option NodeTest → Except Cause String
  | none => .ok defaultTag
  | some .any => .error .wildcardTemplate
  | some (.named name) => .ok name

/-- What a plain attribute test sets. Comparisons set nothing. -/
def pairOf (test : AttributeTest) : Except Cause (String × String) :=
  if test.op = .plain then .ok (test.name, test.value.getD "")
  else .error (.comparisonTemplate test.name)

/-- What the id and the classes set. -/
def namedPairs (s : Segment) : List (String × String) :=
  s.id.toList.map (("id", ·)) ++
    if s.classes.isEmpty then [] else [("class", " ".intercalate s.classes)]

/-- The template of a segment with the text after it. The bracketed tests come
first, then the id and the classes, which have the last word. -/
def ofSegment (s : Segment) (rest : List Char) : Except Cause Template :=
  if !rest.isEmpty || s.combinator = .child then .error .manySegments
  else if s.pseudo.isSome then .error .pseudoTemplate
  else do
    let tag ← tagOf s.tag
    let pairs ← s.attributes.mapM pairOf
    return ⟨tag, setAll (pairs ++ namedPairs s) []⟩

/-- The template that a selector describes. -/
def ofSelector (selector : String) : Except Error Template := do
  let text := Text.trim selector.toList
  let (segment, rest) ← Error.blame (String.ofList text) (Segment.read text)
  Error.blame selector (ofSegment segment rest)

end Template

end SelectorPath
