/-
Steps, with the arguments of pseudo-classes cut at byte positions.

* `Bytewise.positions?`: the notation `An+B`, cut at its first `n`.
* `Bytewise.containsCondition`: the argument of `:contains`, of which the first
  piece is asked for.
* `Bytewise.toStep`: the step of a segment (`Bytewise.toStep_eq`).
-/
import SelectorPath.Proofs.Bytes.Segment
import SelectorPath.Selector.Step

namespace SelectorPath.Bytewise

open XPath Text

/-- An outcome whose cause of failure is laid to `selector`. -/
def blame {α : Type} (selector : String) (x : ExceptT Cause Option α) : ExceptT Error Option α :=
  ExceptT.mk (x.run.map (Error.blame selector))

@[simp] lemma blame_sure {α : Type} (selector : String) (x : Except Cause α) :
    blame selector (sure x) = sure (Error.blame selector x) := rfl

/-! ### Positions -/

/-- The positions that a normalized text stands for. -/
def positions? (text : List Char) : Option (Option Positions) :=
  if text = ['o', 'd', 'd'] then some (some .odd)
  else if text = ['e', 'v', 'e', 'n'] then some (some .even)
  else do
    match ← cutAt 'n' text with
    | none => return (Positions.integer? text).map .exactly
    | some (before, after) => return do
      let step ← Positions.step? before
      let offset ← Positions.offset? after
      return .every step offset

/-- The sign and the number are cut out at symbols of ASCII. -/
lemma positions?_eq (text : List Char) :
    positions? text = some (Positions.ofNormalized? text) := by
  rw [positions?, Positions.ofNormalized?]
  split_ifs
  · rfl
  · rfl
  · rw [cutAt_eq (by decide)]
    cases text.dropWhile (· != 'n') <;> rfl

/-- The condition on the position that a pseudo-class asks for. -/
def positionCondition (pseudo : Pseudo) : ExceptT Cause Option Condition := do
  let argument ← sure pseudo.requiredArgument
  match ← need (positions? (Positions.normalized argument.toList)) with
  | some positions => return positions.condition
  | none => throw (.invalidPositions argument)

lemma positionCondition_eq (pseudo : Pseudo) :
    positionCondition pseudo = sure pseudo.positionCondition := by
  refine bind_eq_sure fun argument _ => ?_
  rw [positions?_eq, need_some, sure_ok_bind, Positions.ofText?]
  cases Positions.ofNormalized? (Positions.normalized argument.toList) <;> rfl

/-! ### Texts -/

/-- The condition of `:contains`. It asks for the first of the pieces that the
argument comes apart into. -/
def containsCondition (pseudo : Pseudo) : ExceptT Cause Option Condition := do
  let argument ← sure pseudo.requiredArgument
  match ← need (splitTopLevel ',' argument.toList) with
  | none => throw .openContains
  | some parts =>
    let first ← need parts[0]?
    let text ← need (unquote (trim first))
    if parts[1]?.map trim = some ['t', 'r', 'u', 'e'] then
      return .equal ⟨.wide, .texts, .literal (String.ofList text)⟩
    else return .caseless (String.ofList text)

lemma containsCondition_eq (pseudo : Pseudo) :
    containsCondition pseudo = sure pseudo.containsCondition := by
  refine bind_eq_sure fun argument _ => ?_
  rw [splitTopLevel_eq (by decide) (by decide), need_some, sure_ok_bind, Text.splitTopLevel]
  cases cutTopLevel ',' argument.toList with
  | none => rfl
  | some found =>
      obtain ⟨first, more⟩ := found
      show (need (unquote (trim first)) >>= _) = _
      rw [unquote_eq, need_some, sure_ok_bind, List.getElem?_cons_succ]
      dsimp only
      rw [List.head?_eq_getElem?]
      split_ifs <;> rfl

/-! ### Segments -/

/-- A compiler for the selectors inside a pseudo-class. -/
abbrev Nested := List Char → ExceptT Error Option (List Path)

/-- What a known pseudo-class asks of the elements under a node test. -/
def knownTest (nested : Nested) (source : String) (test : NodeTest) (pseudo : Pseudo) :
    PseudoClass → ExceptT Error Option (NodeTest × Predicate)
  | .firstChild => return (test, .holds (.compare .equal .position (.integer 1)))
  | .lastChild => return (test, .holds (.compare .equal .position .last))
  | .empty => return (test, .holds (.compare .equal .descendants (.integer 0)))
  | .notEmpty => return (test, .holds (.compare .above .descendants (.integer 0)))
  | .nthChild => do
    let position ← blame source (positionCondition pseudo)
    return (.any, .holds (Segment.siblingCondition test position))
  | .nthOfType => do
    let position ← blame source (positionCondition pseudo)
    return (test, .holds position)
  | .contains => do
    let condition ← blame source (containsCondition pseudo)
    return (test, .holds condition)
  | .has => do
    let inner ← blame source (sure pseudo.requiredArgument)
    let paths ← nested inner.toList
    return (test, .reaches paths)
  | .not => do
    let inner ← blame source (sure pseudo.requiredArgument)
    let paths ← nested inner.toList
    return (test, .avoids paths)

/-- What a pseudo-class asks of the elements under a node test. -/
def pseudoTest (nested : Nested) (source : String) (test : NodeTest) (pseudo : Pseudo) :
    ExceptT Error Option (NodeTest × Predicate) :=
  match PseudoClass.ofName? pseudo.name with
  | some known => knownTest nested source test pseudo known
  | none => throw (.unsupported pseudo.name)

/-- The step for a segment. -/
def toStep (nested : Nested) (source : String) (axis : Axis) (s : Segment) :
    ExceptT Error Option Step :=
  match s.pseudo with
  | some pseudo => do
    let (test, predicate) ← pseudoTest nested source (s.tag.getD .any) pseudo
    return ⟨axis, test, s.conditions.map .holds ++ [predicate]⟩
  | none =>
    if s.tag.isNone && s.conditions.isEmpty then throw (.malformed source .bareStep)
    else return ⟨axis, s.tag.getD .any, s.conditions.map .holds⟩

section

variable {nested : Nested} {nested' : Segment.Nested} {source : String}

/-- A pseudo-class is translated alike if the selector inside it is. -/
lemma knownTest_eq {test : NodeTest} {pseudo : Pseudo} (known : PseudoClass)
    (h : ∀ a, pseudo.argument = some a → nested a.toList = sure (nested' a.toList)) :
    knownTest nested source test pseudo known =
      sure (Segment.knownTest nested' source test pseudo known) := by
  have hinner : ∀ a, Error.blame source pseudo.requiredArgument = .ok a →
      nested a.toList = sure (nested' a.toList) :=
    fun a ha => h a (Pseudo.argument_of_requiredArgument (Error.blame_eq_ok.mp ha))
  cases known with
  | firstChild | lastChild | empty | notEmpty => rfl
  | nthChild | nthOfType =>
      rw [knownTest, positionCondition_eq, blame_sure]
      exact bind_eq_sure fun position _ => rfl
  | contains =>
      rw [knownTest, containsCondition_eq, blame_sure]
      exact bind_eq_sure fun condition _ => rfl
  | has | not =>
      rw [knownTest, blame_sure]
      refine bind_eq_sure fun inner hargument => ?_
      rw [hinner inner hargument]
      exact bind_eq_sure fun paths _ => rfl

/-- A step is made as it is over the characters, if the selector inside its
pseudo-class is compiled so. -/
lemma toStep_eq {axis : Axis} {s : Segment}
    (h : ∀ a, s.pseudo.bind Pseudo.argument = some a →
      nested a.toList = sure (nested' a.toList)) :
    toStep nested source axis s = sure (s.toStep nested' source axis) := by
  rw [toStep, Segment.toStep]
  cases hpseudo : s.pseudo with
  | none =>
      dsimp only
      split_ifs <;> rfl
  | some pseudo =>
      rw [hpseudo] at h
      dsimp only
      have htest : pseudoTest nested source (s.tag.getD .any) pseudo =
          sure (Segment.pseudoTest nested' source (s.tag.getD .any) pseudo) := by
        rw [pseudoTest, Segment.pseudoTest]
        cases PseudoClass.ofName? pseudo.name with
        | none => rfl
        | some known => exact knownTest_eq known h
      rw [htest]
      exact bind_eq_sure fun found _ => rfl

end

end SelectorPath.Bytewise
