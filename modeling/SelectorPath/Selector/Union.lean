/-
Compiling a selector into paths.

A selector is a union of clauses, and the arguments of `:has` and `:not` are
selectors again. Those are shorter than the text they stand in, so compiling
comes to an end.

* `Selector.paths`: the paths of a selector.
* `Selector.paths_eq`: the compiler for the selectors inside a pseudo-class is
  the compiler itself.
-/
import SelectorPath.Selector.Clause

namespace SelectorPath

open XPath

namespace Clause

/-! ### Only shorter texts are handed on -/

/-- Of the selectors inside it, a pseudo-class hands on its argument only. -/
theorem pseudoTest_congr {f g : Segment.Nested} {source : String} {test : NodeTest}
    {pseudo : Pseudo} (h : ∀ a, pseudo.argument = some a → f a.toList = g a.toList) :
    Segment.pseudoTest f source test pseudo = Segment.pseudoTest g source test pseudo := by
  have harg : ∀ a, pseudo.requiredArgument = .ok a → f a.toList = g a.toList := by
    intro a ha
    rw [Pseudo.requiredArgument] at ha
    split at ha
    · simp at ha
    · split at ha
      · simp at ha
      · next heq _ => exact h a (by simp_all)
  rw [Segment.pseudoTest, Segment.pseudoTest]
  split
  · next known _ =>
    cases known with
    | has | not =>
      rw [Segment.knownTest, Segment.knownTest]
      cases ha : pseudo.requiredArgument with
      | error e => rfl
      | ok a => simp only [Error.blame, bind, Except.bind, harg a ha]
    | _ => rfl
  · rfl

theorem toStep_congr {f g : Segment.Nested} {source : String} {axis : Axis} {s : Segment}
    (h : ∀ a, s.pseudo.bind Pseudo.argument = some a → f a.toList = g a.toList) :
    s.toStep f source axis = s.toStep g source axis := by
  rw [Segment.toStep, Segment.toStep]
  split
  · next pseudo hpseudo =>
    rw [pseudoTest_congr fun a ha => h a (by rw [hpseudo]; exact ha)]
  · rfl

/-- All arguments in a chain are shorter than the chain. -/
theorem steps_congr {f g : Segment.Nested} {source : String} {axis : Axis} {chain : List Char}
    (h : ∀ a, a.length < chain.length → f a = g a) :
    steps f source axis chain = steps g source axis chain := by
  induction hn : chain.length using Nat.strongRecOn generalizing axis chain with
  | _ n ih =>
    by_cases hne : chain = []
    · rw [hne, steps_nil, steps_nil]
    · cases hread : Segment.read chain with
      | error cause =>
        rw [steps_of_read_eq_error hne hread, steps_of_read_eq_error hne hread]
      | ok r =>
        obtain ⟨segment, rest⟩ := r
        have hlt := Segment.length_of_read hread
        rw [steps_of_read_eq_ok hne hread, steps_of_read_eq_ok hne hread,
          toStep_congr fun a ha => h _ (Segment.length_argument_of_read hread ha),
          ih rest.length (hn ▸ hlt) (fun a ha => h a (Nat.lt_trans ha hlt)) rfl]

theorem length_splitAxis_le (chain : List Char) : (splitAxis chain).2.length ≤ chain.length := by
  have htrim := Text.length_trim_le chain
  rw [splitAxis]
  split
  · next rest heq =>
    have := Text.length_trimStart_le rest
    rw [heq, List.length_cons] at htrim
    dsimp only
    omega
  · exact htrim

/-- Taking the property off makes a clause no longer. -/
theorem length_splitProperty_le {source chain : List Char} {property : Option Property}
    (h : splitProperty source = .ok (chain, property)) : chain.length ≤ source.length := by
  rw [splitProperty] at h
  split at h
  · obtain ⟨p, -, hret⟩ := Error.bind_eq_ok.mp h
    obtain ⟨rfl, rfl⟩ := by simpa [pure, Except.pure] using hret
    exact List.length_take_le' _ _
  · obtain ⟨rfl, rfl⟩ := by simpa using h
    exact Nat.le_refl _

/-- All arguments in a clause are shorter than the clause. -/
theorem toPath_congr {f g : Segment.Nested} {clause : List Char}
    (h : ∀ a, a.length < clause.length → f a = g a) : toPath f clause = toPath g clause := by
  rw [toPath, toPath]
  split
  · rfl
  · rw [pathOfTrimmed, pathOfTrimmed]
    cases hsplit : splitProperty (Text.trim clause) with
    | error e => rfl
    | ok r =>
      obtain ⟨chain, property⟩ := r
      have hsteps : steps f (String.ofList (Text.trim clause)) (splitAxis chain).1
            (splitAxis chain).2 =
          steps g (String.ofList (Text.trim clause)) (splitAxis chain).1 (splitAxis chain).2 := by
        refine steps_congr fun a ha => h a ?_
        have := length_splitProperty_le hsplit
        have := length_splitAxis_le chain
        have := Text.length_trim_le clause
        omega
      simp only [Error.blame, bind, Except.bind, hsteps]

/-- No clause is longer than the selector. -/
theorem length_le_of_mem_splitUnion {selector : List Char} {clauses : List (List Char)}
    (h : splitUnion selector = .ok clauses) : ∀ c ∈ clauses, c.length ≤ selector.length := by
  rw [splitUnion] at h
  split at h
  · simp at h
  · next parts hparts =>
    split at h
    · simp at h
    · obtain rfl := by simpa using h
      intro c hc
      obtain ⟨p, hp, rfl⟩ := List.mem_map.mp hc
      exact Nat.le_trans (Text.length_trim_le p)
        (Text.length_le_of_mem_splitTopLevel hparts p hp)

/-- All arguments in a selector are shorter than the selector, so that it does not matter
what longer texts are taken for. -/
theorem unionPaths_congr {f g : Segment.Nested} {selector : List Char}
    (h : ∀ a, a.length < selector.length → f a = g a) :
    unionPaths f selector = unionPaths g selector := by
  rw [unionPaths, unionPaths]
  cases hsplit : splitUnion selector with
  | error e => rfl
  | ok clauses =>
    have hle := length_le_of_mem_splitUnion hsplit
    have hclauses : clauses.mapM (toPath f) = clauses.mapM (toPath g) :=
      Error.mapM_congr fun c hc =>
        toPath_congr fun a ha => h a (Nat.lt_of_lt_of_le ha (hle c hc))
    simp only [bind, Except.bind, hclauses]

end Clause

namespace Selector

/-- The paths of a selector, one for each clause of the union. -/
def paths (selector : List Char) : Except Error (List Path) :=
  Clause.unionPaths
    (fun inner => if inner.length < selector.length then paths inner else .ok []) selector
termination_by selector.length

/-- Selectors inside a pseudo-class are compiled like the selector itself. -/
theorem paths_eq (selector : List Char) :
    paths selector = Clause.unionPaths paths selector := by
  rw [paths]
  exact Clause.unionPaths_congr fun a ha => if_pos ha

/-- The path of one clause. -/
def clausePath (clause : List Char) : Except Error Path := Clause.toPath paths clause

end Selector

end SelectorPath
