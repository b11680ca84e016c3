/-
Clauses: chains of segments, with an optional property at the end.

* `Clause.splitProperty`: the chain, and the property after the last `::`
  outside groups and quotations.
* `Clause.steps`: the steps of a chain, each on the axis that the combinator
  before it says.
* `Clause.toPath`: the path of a clause.
* `Clause.splitUnion`: the clauses of a union, separated by commas.

All of them are parametric in the compiler for the selectors inside a
pseudo-class.
-/
import SelectorPath.Selector.Property
import SelectorPath.Selector.Segment.Progress
import SelectorPath.Selector.Step

namespace SelectorPath

open XPath

/-- The axis of the step after a combinator. -/
def Combinator.axis : Combinator → Axis
  | .descendant => .descendant
  | .child => .child

namespace Clause

/-- The chain of a clause, and the property if there is one. -/
def splitProperty (source : List Char) : Except Cause (List Char × Option Property) :=
  match Text.lastTopLevel [':', ':'] source with
  | some i => do
    let property ← Property.read (source.drop (i + 2))
    return (source.take i, some property)
  | none => .ok (source, none)

/-- The axis of the first step, and the chain after a leading `>`. -/
def splitAxis (chain : List Char) : Axis × List Char :=
  match Text.trim chain with
  | '>' :: rest => (.child, Text.trimStart rest)
  | rest => (.descendant, rest)

/-- The steps of a chain whose first step is on the given axis. A chain that
ends where a child should follow is not complete. -/
def steps (nested : Segment.Nested) (source : String) (axis : Axis) (chain : List Char) :
    Except Error (List Step) :=
  if chain.isEmpty then
    if axis = .child then .error (.malformed source .danglingChild) else .ok []
  else
    match _h : Segment.read chain with
    | .error cause => .error (.malformed source cause)
    | .ok (segment, rest) => do
      let step ← segment.toStep nested source axis
      let more ← steps nested source segment.combinator.axis rest
      return step :: more
termination_by chain.length
decreasing_by exact Segment.length_of_read _h

/-! ### The steps of a chain, one segment at a time -/

section

variable {nested : Segment.Nested} {source : String} {axis : Axis} {chain : List Char}

/-- A chain may end anywhere but after an arrow. -/
theorem steps_nil : steps nested source axis [] =
    if axis = .child then .error (.malformed source .danglingChild) else .ok [] := by
  rw [steps, if_pos List.isEmpty_nil]

theorem steps_of_read_eq_error (hne : chain ≠ []) {cause : Cause}
    (h : Segment.read chain = .error cause) :
    steps nested source axis chain = .error (.malformed source cause) := by
  rw [steps, if_neg (by simpa using hne)]
  split <;> simp_all

/-- A segment that was read is translated before the next one is read. -/
theorem steps_of_read_eq_ok (hne : chain ≠ []) {segment : Segment} {rest : List Char}
    (h : Segment.read chain = .ok (segment, rest)) :
    steps nested source axis chain = (do
      let step ← segment.toStep nested source axis
      let more ← steps nested source segment.combinator.axis rest
      return step :: more) := by
  rw [steps, if_neg (by simpa using hne)]
  split
  · simp_all
  · next h' =>
    obtain ⟨rfl, rfl⟩ : _ ∧ _ := by simpa [h] using h'
    rfl

end

/-! ### Clauses and unions -/

/-- The path of a clause without white space around it. -/
def pathOfTrimmed (nested : Segment.Nested) (source : List Char) : Except Error Path := do
  let name := String.ofList source
  let (chain, property) ← Error.blame name (splitProperty source)
  let first := splitAxis chain
  if first.2.isEmpty then .error (.malformed name .missingSegment)
  else do
    let steps ← steps nested name first.1 first.2
    return ⟨steps, property⟩

/-- The path of a clause. -/
def toPath (nested : Segment.Nested) (clause : List Char) : Except Error Path :=
  if (Text.trim clause).isEmpty then
    .error (.malformed (String.ofList clause) .emptySelector)
  else pathOfTrimmed nested (Text.trim clause)

/-- The clauses of a union, without white space around them. -/
def splitUnion (selector : List Char) : Except Error (List (List Char)) :=
  match Text.splitTopLevel ',' selector with
  | none => .error (.malformed (String.ofList selector) .openQuote)
  | some parts =>
    if (parts.map Text.trim).any List.isEmpty then
      .error (.malformed (String.ofList selector) .emptySelector)
    else .ok (parts.map Text.trim)

/-- The paths of a union, one for each clause. -/
def unionPaths (nested : Segment.Nested) (selector : List Char) : Except Error (List Path) := do
  let clauses ← splitUnion selector
  clauses.mapM (toPath nested)

end Clause

end SelectorPath
