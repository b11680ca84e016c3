/-
Predicates in a context.

A predicate is tested for an element in a context: at a position among a number
of candidates. Only comparisons of `position()` and `last()` look at the
context. A path that begins at the element itself has that element as its only
candidate, so what its first step asks is tested at the first position of one,
wherever the element stands.

* `XPath.Interpretation`: what all that does not look at the context says of an
  element. Nothing is assumed about it.
* `Condition.Holds`, `Predicate.Holds`, `Step.Holds`: the truth of conditions,
  predicates and steps for an element in a context.
* `Predicate.avoids_single_iff`: an avoided step is tested for the element
  alone.
* `Predicate.IgnoresContext`: predicates whose truth is the same in all contexts.
-/
import SelectorPath.Proofs.XPath.Arithmetic

namespace SelectorPath.XPath

/-- The only place among a single candidate. -/
def Place.alone : Place := ⟨1, 1, Int.le_refl 1, Int.le_refl 1⟩

/-- What is said of an element without regard to the context. -/
structure Interpretation (ε : Type) where
  /-- The elements that pass a node test. -/
  passes : NodeTest → ε → Prop
  /-- The elements under a condition. -/
  asks : Condition → ε → Prop
  /-- The elements from which one of the paths leads somewhere. -/
  reaches : List Path → ε → Prop
  /-- The elements from which a path of several steps, or one with a property,
  leads somewhere when it begins at the element itself. -/
  leads : Path → ε → Prop

section

variable {ε : Type} (i : Interpretation ε) (e : ε)

/-- The truth of a condition for an element at a place. -/
def Condition.Holds (place : Place) : Condition → Prop
  | .compare relation a b =>
    match a.value? place, b.value? place with
    | some x, some y => relation.holds x y = true
    | _, _ => i.asks (.compare relation a b) e
  | .conjunction a b => a.Holds place ∧ b.Holds place
  | .group c => c.Holds place
  | c => i.asks c e

mutual

/-- The truth of a predicate for an element at a place. -/
def Predicate.Holds : Place → Predicate → Prop
  | place, .holds condition => condition.Holds i e place
  | _, .reaches paths => i.reaches paths e
  | _, .avoids paths => Path.NoneHolds paths

/-- All predicates are true. -/
def Predicate.AllHold : Place → List Predicate → Prop
  | _, [] => True
  | place, p :: ps => p.Holds place ∧ Predicate.AllHold place ps

/-- The element is one that the step looks for. -/
def Step.Holds : Place → Step → Prop
  | place, ⟨_, test, predicates⟩ => i.passes test e ∧ Predicate.AllHold place predicates

/-- The path leads somewhere when it begins at the element itself. -/
def Path.Holds : Path → Prop
  | ⟨[step], none⟩ => step.Holds Place.alone
  | path => i.leads path e

/-- No path leads somewhere. -/
def Path.NoneHolds : List Path → Prop
  | [] => True
  | p :: ps => ¬ p.Holds ∧ Path.NoneHolds ps

end

variable {i e} {place : Place}

/-! ### The list forms are conjunctions -/

lemma Predicate.allHold_iff {ps : List Predicate} :
    Predicate.AllHold i e place ps ↔ ∀ p ∈ ps, p.Holds i e place := by
  induction ps with
  | nil => simp [Predicate.AllHold]
  | cons p ps ih => rw [Predicate.AllHold, ih, List.forall_mem_cons]

/-- A step holds of an element that passes the test and all of the predicates. -/
lemma Step.holds_iff {step : Step} : step.Holds i e place ↔
    i.passes step.test e ∧ ∀ p ∈ step.predicates, p.Holds i e place := by
  obtain ⟨axis, test, predicates⟩ := step
  rw [Step.Holds, Predicate.allHold_iff]

/-- What is avoided is tested for the element alone. -/
lemma Predicate.avoids_single_iff (step : Step) :
    (Predicate.avoids [⟨[step], none⟩]).Holds i e place ↔ ¬ step.Holds i e Place.alone := by
  rw [Predicate.Holds, Path.NoneHolds, Path.NoneHolds, Path.Holds, and_true]

end

/-! ### Predicates that do not look at the context -/

/-- The truth of the predicate is the same at all places. -/
def Predicate.IgnoresContext (p : Predicate) : Prop :=
  ∀ {ε : Type} (i : Interpretation ε) (e : ε) (place place' : Place),
    p.Holds i e place ↔ p.Holds i e place'

/-- The step looks for the same elements at all places, if none of its predicates
looks at the context. -/
lemma Step.holds_congr {step : Step} (h : ∀ p ∈ step.predicates, p.IgnoresContext) {ε : Type}
    (i : Interpretation ε) (e : ε) (place place' : Place) :
    step.Holds i e place ↔ step.Holds i e place' := by
  rw [Step.holds_iff, Step.holds_iff]
  exact and_congr_right fun _ => forall₂_congr fun p hp => h p hp i e place place'

/-- Paths inside a predicate have positions of their own. -/
lemma Predicate.ignoresContext_reaches (paths : List Path) :
    (Predicate.reaches paths).IgnoresContext := fun _ _ _ _ => by
  rw [Predicate.Holds, Predicate.Holds]

lemma Predicate.ignoresContext_avoids (paths : List Path) :
    (Predicate.avoids paths).IgnoresContext := fun _ _ _ _ => by
  rw [Predicate.Holds, Predicate.Holds]

end SelectorPath.XPath
