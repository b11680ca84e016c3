/-
Location paths.

A path is a chain of steps. Each step has an axis, a node test and predicates,
and a predicate may hold paths of its own: those that must lead somewhere from
the node, and those that the node itself must not be on.

* `Predicate`, `Step`, `Path`: the three kinds, mutually dependent.
* `Outline`: a path whose steps are already written.
* `Anchor`: where the first step of a written path starts.
* `Path.render`: the path as it is written.
-/
import SelectorPath.XPath.Condition
import SelectorPath.XPath.NodeTest

namespace SelectorPath.XPath

/-- How far below the current nodes a step looks. -/
inductive Axis where
  /-- At any depth. -/
  | descendant
  /-- Directly below. -/
  | child
  deriving DecidableEq

/-- The axis as it is written. -/
def Axis.slashes : Axis → String
  | .descendant => "//"
  | .child => "/"

/-- What is taken from the selected elements. -/
inductive Property where
  /-- The texts directly below them. -/
  | text
  /-- Their attributes of the given names. -/
  | attributes (names : List String)
  deriving DecidableEq

/-- The property as a last step. -/
def Property.render : Property → String
  | .text => "text()"
  | .attributes names =>
    "@*[" ++ " or ".intercalate (names.map fun name =>
      Equality.render ⟨.wide, .nodeName, .literal name⟩) ++ "]"

mutual

/-- What a step asks of the elements that pass its node test. -/
inductive Predicate where
  /-- The element is under a condition. -/
  | holds (condition : Condition)
  /-- One of the paths leads somewhere from the element. -/
  | reaches (paths : List Path)
  /-- None of the paths, begun at the element itself, leads somewhere. -/
  | avoids (paths : List Path)

/-- One step of a path. -/
structure Step where
  /-- How far the step looks. -/
  axis : Axis
  /-- Which elements it looks at. -/
  test : NodeTest
  /-- What it asks of them, in order. -/
  predicates : List Predicate

/-- A chain of steps, with what is taken from the elements at its end. -/
structure Path where
  /-- The steps, in order. -/
  steps : List Step
  /-- What is taken at the end, the elements themselves if nothing else. -/
  property : Option Property

end

/-- Where the first step of a written path starts. -/
inductive Anchor where
  /-- At the root of the document. -/
  | document
  /-- Below the current node. -/
  | relative
  /-- At the current node itself. -/
  | self
  deriving DecidableEq

/-- What is written before the first step. -/
def Anchor.lead : Anchor → Axis → String
  | .document, axis => axis.slashes
  | .relative, axis => "." ++ axis.slashes
  | .self, _ => ""

/-- A path whose steps are written, each without its axis. -/
structure Outline where
  /-- The steps, each with its axis. -/
  steps : List (Axis × String)
  /-- The last step, for a property. -/
  property : Option String

namespace Outline

/-- Steps that follow others, each after the slashes of its axis. -/
def chain (steps : List (Axis × String)) : String :=
  String.join (steps.map fun step => step.1.slashes ++ step.2)

/-- The last step of a path, after a slash. -/
def ending : Option String → String
  | none => ""
  | some property => "/" ++ property

/-- The path as it is written from an anchor. -/
def render (anchor : Anchor) (o : Outline) : String :=
  match o.steps with
  | [] => ending o.property
  | (axis, step) :: more => anchor.lead axis ++ step ++ chain more ++ ending o.property

/-- The path as a test of the current node, which must fail. -/
def renderAvoided (o : Outline) : String := "not(self::" ++ o.render .self ++ ")"

end Outline

/-- A node test with its predicates in brackets; several are grouped and
joined. -/
def bracketed (test : NodeTest) : List String → String
  | [] => test.text
  | [predicate] => test.text ++ "[" ++ predicate ++ "]"
  | predicates => test.text ++ "[(" ++ ") and (".intercalate predicates ++ ")]"

mutual

/-- The predicate as it is written. -/
def Predicate.render (folding : Folding) : Predicate → String
  | .holds condition => condition.render folding
  | .reaches paths =>
    " | ".intercalate ((Path.outlines folding paths).map (Outline.render .relative))
  | .avoids paths =>
    " and ".intercalate ((Path.outlines folding paths).map Outline.renderAvoided)

/-- Predicates as they are written. -/
def Predicate.renderAll (folding : Folding) : List Predicate → List String
  | [] => []
  | p :: ps => p.render folding :: Predicate.renderAll folding ps

/-- The step as it is written, without its axis. -/
def Step.body (folding : Folding) : Step → String
  | ⟨_, test, predicates⟩ => bracketed test (Predicate.renderAll folding predicates)

/-- Steps as they are written, each with its axis beside it. -/
def Step.bodies (folding : Folding) : List Step → List (Axis × String)
  | [] => []
  | s :: ss => (s.axis, s.body folding) :: Step.bodies folding ss

/-- The path with its steps written. -/
def Path.outline (folding : Folding) : Path → Outline
  | ⟨steps, property⟩ => ⟨Step.bodies folding steps, property.map Property.render⟩

/-- Paths with their steps written. -/
def Path.outlines (folding : Folding) : List Path → List Outline
  | [] => []
  | p :: ps => p.outline folding :: Path.outlines folding ps

end

/-- The path as it is written from an anchor. -/
def Path.render (folding : Folding) (anchor : Anchor) (path : Path) : String :=
  (path.outline folding).render anchor

/-! ### The list forms are maps -/

theorem Predicate.renderAll_eq_map (folding : Folding) (ps : List Predicate) :
    Predicate.renderAll folding ps = ps.map (Predicate.render folding) := by
  induction ps with
  | nil => rfl
  | cons p ps ih => rw [Predicate.renderAll, ih, List.map_cons]

theorem Step.bodies_eq_map (folding : Folding) (ss : List Step) :
    Step.bodies folding ss = ss.map fun s => (s.axis, s.body folding) := by
  induction ss with
  | nil => rfl
  | cons s ss ih => rw [Step.bodies, ih, List.map_cons]

theorem Path.outlines_eq_map (folding : Folding) (ps : List Path) :
    Path.outlines folding ps = ps.map (Path.outline folding) := by
  induction ps with
  | nil => rfl
  | cons p ps ih => rw [Path.outlines, ih, List.map_cons]

/-- Paths are rendered one by one, from what their outlines are. -/
theorem Path.renderAll_eq_map (folding : Folding) (anchor : Anchor) (ps : List Path) :
    (Path.outlines folding ps).map (Outline.render anchor) =
      ps.map (Path.render folding anchor) := by
  rw [Path.outlines_eq_map, List.map_map]
  rfl

end SelectorPath.XPath
