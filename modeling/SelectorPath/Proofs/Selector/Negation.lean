/-
What `:not` asks of an element.

* `Segment.Compound`: selectors of a single segment.
* `Segment.paths_of_compound`: they are compiled to the step of that segment.
* `Segment.not_tests_alone`: `:not` asks that the step of its argument does not
  hold for the element alone. That is the complement of the argument, unless the
  argument looks at positions.
* `Segment.not_first_child`: for `:first-child` it is not the complement.
-/
import SelectorPath.Proofs.Selector.Anchors
import SelectorPath.Proofs.XPath.Context

namespace SelectorPath

open XPath Text

/-- The pseudo-class asks for a position of the element. -/
def PseudoClass.isPositional : PseudoClass → Bool
  | .firstChild | .lastChild | .nthChild | .nthOfType => true
  | .empty | .notEmpty | .contains | .has | .not => false

namespace Segment

/-! ### Selectors of a single segment -/

/-- The text is a selector of one clause, which is one segment without a leading
`>` and without a property. -/
structure Compound (x : String) (segment : Segment) : Prop where
  clause : Clause.splitUnion x.toList = .ok [trim x.toList]
  property : Clause.splitProperty (trim x.toList) = .ok (trim x.toList, none)
  axis : (Clause.splitAxis (trim x.toList)).1 = .descendant
  segments : Clause.segments (Clause.splitAxis (trim x.toList)).2 = .ok [segment]

/-- The step of the only segment of a chain. -/
lemma steps_of_segments {nested : Nested} {source : String} {axis : Axis} {chain : List Char}
    {segment : Segment} {ss : List Step} (hsegments : Clause.segments chain = .ok [segment])
    (h : Clause.steps nested source axis chain = .ok ss) :
    ∃ step, segment.toStep nested source axis = .ok step ∧ ss = [step] := by
  have hne : chain ≠ [] := by
    rintro rfl
    simp [Clause.segments] at hsegments
  cases hread : Segment.read chain with
  | error cause =>
      rw [Clause.steps_of_read_eq_error hne hread] at h
      cases h
  | ok found =>
      obtain ⟨first, rest⟩ := found
      rw [Clause.segments_of_read hne hread] at hsegments
      obtain ⟨more, hmore, hret⟩ := Error.bind_eq_ok.mp hsegments
      obtain ⟨rfl, rfl⟩ := List.cons.inj (Error.pure_eq_ok.mp hret)
      obtain rfl : rest = [] := by
        by_contra hrest
        exact Clause.segments_ne_nil hrest hmore rfl
      rw [Clause.steps_of_read_eq_ok hne hread] at h
      obtain ⟨step, hstep, h⟩ := Error.bind_eq_ok.mp h
      obtain ⟨last, hlast, hret⟩ := Error.bind_eq_ok.mp h
      obtain rfl := Error.pure_eq_ok.mp hret
      rw [Clause.steps_nil] at hlast
      split_ifs at hlast
      obtain rfl := Except.ok.inj hlast
      exact ⟨step, hstep, rfl⟩

/-- Such a selector is compiled to the step of its segment. -/
lemma paths_of_compound {x : String} {segment : Segment} (hx : Compound x segment)
    {ps : List Path} (h : Selector.paths x.toList = .ok ps) :
    ∃ step, segment.toStep Selector.paths (String.ofList (trim x.toList)) .descendant = .ok step ∧
      ps = [⟨[step], none⟩] := by
  rw [Selector.paths_eq, Clause.unionPaths] at h
  obtain ⟨clauses, hclauses, h⟩ := Error.bind_eq_ok.mp h
  obtain rfl := Except.ok.inj (hx.clause.symm.trans hclauses)
  obtain ⟨path, more, hpath, hmore, rfl⟩ :=
    List.forall₂_cons_left_iff.mp (Error.mapM_eq_ok.mp h)
  obtain rfl := List.forall₂_nil_left_iff.mp hmore
  rw [Clause.toPath, trim_trim] at hpath
  split_ifs at hpath
  rw [Clause.pathOfTrimmed, hx.property] at hpath
  obtain ⟨found, hfound, hpath⟩ := Error.bind_eq_ok.mp hpath
  obtain rfl := Except.ok.inj hfound
  dsimp only at hpath
  split_ifs at hpath
  obtain ⟨ss, hsteps, hret⟩ := Error.bind_eq_ok.mp hpath
  obtain rfl := Error.pure_eq_ok.mp hret
  rw [hx.axis] at hsteps
  obtain ⟨step, hstep, rfl⟩ := steps_of_segments hx.segments hsteps
  exact ⟨step, hstep, rfl⟩

/-! ### Segments that do not look at positions -/

/-- The segment asks for a position of the element. -/
def isPositional (s : Segment) : Bool :=
  s.pseudo.any fun p => (PseudoClass.ofName? p.name).any PseudoClass.isPositional

/-- What is left to the interpretation does not look at the context. -/
lemma ignoresContext_of_asks {c : Condition}
    (h : ∀ {ε : Type} (i : Interpretation ε) (e : ε) (place : Place),
      c.Holds i e place ↔ i.asks c e) : (Predicate.holds c).IgnoresContext := by
  intro ε i e place place'
  rw [Predicate.Holds, Predicate.Holds, h, h]

lemma ignoresContext_attribute (test : AttributeTest) :
    (Predicate.holds test.condition).IgnoresContext := by
  rw [AttributeTest.condition]
  cases test.op with
  | plain | namePrefix =>
      dsimp only
      split_ifs <;> exact ignoresContext_of_asks fun _ _ _ => Iff.rfl
  | _ => exact ignoresContext_of_asks fun _ _ _ => Iff.rfl

/-- What a segment asks of attributes does not depend on the position. -/
lemma ignoresContext_conditions (s : Segment) :
    ∀ c ∈ s.conditions, (Predicate.holds c).IgnoresContext := by
  intro c hc
  simp only [conditions, List.mem_append, List.mem_map] at hc
  rcases hc with (⟨id, -, rfl⟩ | ⟨token, -, rfl⟩) | ⟨test, -, rfl⟩
  · exact ignoresContext_of_asks fun _ _ _ => Iff.rfl
  · exact ignoresContext_of_asks fun _ _ _ => Iff.rfl
  · exact ignoresContext_attribute test

/-- Nor does what it asks of the text. -/
lemma ignoresContext_contains {pseudo : Pseudo} {c : Condition}
    (h : pseudo.containsCondition = .ok c) : (Predicate.holds c).IgnoresContext := by
  obtain ⟨argument, -, h⟩ := Error.bind_eq_ok.mp h
  split at h
  · cases h
  · dsimp only at h
    split_ifs at h
    · obtain rfl := Except.ok.inj h
      exact ignoresContext_of_asks fun _ _ _ => Iff.rfl
    · obtain rfl := Except.ok.inj h
      exact ignoresContext_of_asks fun _ _ _ => Iff.rfl

/-- Only the positional pseudo-classes look at the context of an element. -/
lemma ignoresContext_knownTest {nested : Nested} {source : String} {test test' : NodeTest}
    {pseudo : Pseudo} {known : PseudoClass} {predicate : Predicate}
    (hknown : known.isPositional = false)
    (h : knownTest nested source test pseudo known = .ok (test', predicate)) :
    predicate.IgnoresContext := by
  cases known with
  | firstChild | lastChild | nthChild | nthOfType => cases hknown
  | empty | notEmpty =>
      obtain ⟨-, rfl⟩ := Prod.mk.inj (Except.ok.inj h)
      exact ignoresContext_of_asks fun _ _ _ => Iff.rfl
  | contains =>
      obtain ⟨c, hc, h⟩ := Error.bind_eq_ok.mp h
      obtain ⟨-, rfl⟩ := Prod.mk.inj (Error.pure_eq_ok.mp h)
      exact ignoresContext_contains (Error.blame_eq_ok.mp hc)
  | has =>
      obtain ⟨_, -, h⟩ := Error.bind_eq_ok.mp h
      obtain ⟨ps, -, h⟩ := Error.bind_eq_ok.mp h
      obtain ⟨-, rfl⟩ := Prod.mk.inj (Error.pure_eq_ok.mp h)
      exact Predicate.ignoresContext_reaches ps
  | not =>
      obtain ⟨_, -, h⟩ := Error.bind_eq_ok.mp h
      obtain ⟨ps, -, h⟩ := Error.bind_eq_ok.mp h
      obtain ⟨-, rfl⟩ := Prod.mk.inj (Error.pure_eq_ok.mp h)
      exact Predicate.ignoresContext_avoids ps

/-- The step of a segment without positions does not look at the context. -/
lemma ignoresContext_toStep {nested : Nested} {source : String} {axis : Axis} {s : Segment}
    {step : Step} (hs : s.isPositional = false) (h : s.toStep nested source axis = .ok step) :
    ∀ p ∈ step.predicates, p.IgnoresContext := by
  have hconditions : ∀ p ∈ s.conditions.map Predicate.holds, p.IgnoresContext := by
    intro p hp
    obtain ⟨c, hc, rfl⟩ := List.mem_map.mp hp
    exact s.ignoresContext_conditions c hc
  rw [toStep] at h
  split at h
  · next pseudo hpseudo =>
      obtain ⟨⟨test, predicate⟩, htest, h⟩ := Error.bind_eq_ok.mp h
      obtain rfl := Error.pure_eq_ok.mp h
      rw [pseudoTest] at htest
      split at htest
      · next known hname =>
          have hknown : known.isPositional = false := by
            simpa [isPositional, hpseudo, hname] using hs
          intro p hp
          rcases List.mem_append.mp hp with hp | hp
          · exact hconditions p hp
          · obtain rfl := List.mem_singleton.mp hp
            exact ignoresContext_knownTest hknown htest
      · cases htest
  · split_ifs at h
    obtain rfl := Except.ok.inj h
    exact hconditions

/-! ### Negation -/

/-- What `:not` avoids is the step of its argument. -/
lemma toStep_not {x : String} {inner : Segment} (hx : Compound x inner) {folding : Folding}
    {compiled : Compiled} (h : Selector.compile folding x = .ok compiled) {s : Segment}
    (hs : s.pseudo = some ⟨"not", some x⟩) (source : String) (axis : Axis) :
    ∃ step, inner.toStep Selector.paths (String.ofList (trim x.toList)) .descendant = .ok step ∧
      s.toStep Selector.paths source axis =
        .ok ⟨axis, s.tag.getD .any,
          s.conditions.map Predicate.holds ++ [.avoids [⟨[step], none⟩]]⟩ := by
  have hne : x ≠ "" := by
    rintro rfl
    exact absurd hx.clause (by decide)
  cases hpaths : Selector.paths x.toList with
  | error e =>
      rw [Selector.compile_of_error hpaths] at h
      cases h
  | ok ps =>
      obtain ⟨step, hstep, rfl⟩ := paths_of_compound hx hpaths
      have htest : pseudoTest Selector.paths source (s.tag.getD .any) ⟨"not", some x⟩ =
          .ok (s.tag.getD .any, .avoids [⟨[step], none⟩]) := by
        have hnested := Selector.pseudoTest_nested (.inr ⟨rfl, rfl⟩) hne Selector.paths source
          (s.tag.getD .any)
        rw [hpaths] at hnested
        exact hnested
      refine ⟨step, hstep, ?_⟩
      rw [toStep, hs]
      exact Error.bind_eq_ok.mpr ⟨_, htest, rfl⟩

/-- An avoided step is written as a test of the element itself. -/
lemma render_avoids_single (folding : Folding) (step : Step) :
    (Predicate.avoids [⟨[step], none⟩]).render folding =
      "not(self::" ++ step.body folding ++ ")" := by
  simp [Predicate.render, Path.outlines_eq_map, Path.outline, Step.bodies_eq_map,
    Outline.renderAvoided, Outline.render, Outline.chain, Outline.ending, Anchor.lead]

/-- **`:not` tests its argument for the element alone.** The predicate of `:not(x)`,
for a selector `x` of one segment, holds for an element in a context exactly if
the step of `x` does not hold for the same element as the only candidate. It is
the complement of `x` in the same context if `x` asks for no position. -/
theorem not_tests_alone {x : String} {inner : Segment} (hx : Compound x inner)
    {folding : Folding} {compiled : Compiled} (h : Selector.compile folding x = .ok compiled)
    {s : Segment} (hs : s.pseudo = some ⟨"not", some x⟩) (source : String) (axis : Axis) :
    ∃ step predicate,
      inner.toStep Selector.paths (String.ofList (trim x.toList)) .descendant = .ok step ∧
        s.toStep Selector.paths source axis =
          .ok ⟨axis, s.tag.getD .any, s.conditions.map Predicate.holds ++ [predicate]⟩ ∧
        predicate.render folding = "not(self::" ++ step.body folding ++ ")" ∧
        ∀ {ε : Type} (i : Interpretation ε) (e : ε) (place : Place),
          (predicate.Holds i e place ↔ ¬ step.Holds i e Place.alone) ∧
            (inner.isPositional = false →
              (predicate.Holds i e place ↔ ¬ step.Holds i e place)) := by
  obtain ⟨step, hstep, hnot⟩ := toStep_not hx h hs source axis
  refine ⟨step, _, hstep, hnot, render_avoids_single folding step, fun i e place => ?_⟩
  have halone : (Predicate.avoids [⟨[step], none⟩]).Holds i e place ↔
      ¬ step.Holds i e Place.alone := Predicate.avoids_single_iff step
  refine ⟨halone, fun hinner => ?_⟩
  rw [halone, Step.holds_congr (ignoresContext_toStep hinner hstep) i e place Place.alone]

/-- Elements of which nothing is known but whether they are under all conditions. -/
def marked : Interpretation Bool where
  passes _ _ := True
  asks _ e := e = true
  reaches _ _ := True
  leads _ _ := True

/-- The second of two places. -/
def second : Place := ⟨2, 2, by decide, by decide⟩

/-- `li:not(.skip)` at the second place: the class is as good as a mark. -/
theorem not_tests_alone_class :
    ∃ predicate,
      toStep Selector.paths "" .child
          { tag := some (.named "li"), pseudo := some ⟨"not", some ".skip"⟩ } =
        .ok ⟨.child, .named "li", [predicate]⟩ ∧
        predicate.Holds marked false second ∧ ¬ predicate.Holds marked true second := by
  have hx : Compound ".skip" { classes := ["skip"] } :=
    ⟨by decide +kernel, by decide +kernel, by decide +kernel, by decide +kernel⟩
  have hcompile : Selector.compile .ascii ".skip" = .ok ⟨[
      "//*[contains(concat(\" \", normalize-space(@class), \" \"), \" skip \")]"]⟩ := by
    decide +kernel
  obtain ⟨step, predicate, hstep, hnot, -, hholds⟩ := not_tests_alone hx hcompile
    (s := { tag := some (.named "li"), pseudo := some ⟨"not", some ".skip"⟩ }) rfl "" .child
  obtain rfl := Except.ok.inj hstep
  refine ⟨predicate, hnot, ?_, ?_⟩
  · rw [((hholds marked false second).2 rfl), Step.holds_iff]
    simp [Predicate.Holds, Condition.Holds, conditions, tokenCondition, marked]
  · rw [((hholds marked true second).2 rfl), Step.holds_iff]
    simp [Predicate.Holds, Condition.Holds, conditions, tokenCondition, marked]

/-- The second of two elements is not the first, and yet `:not(:first-child)` does
not hold for it: alone it would be the first. -/
theorem not_first_child :
    Compound ":first-child" { pseudo := some ⟨"first-child", none⟩ } ∧
      Selector.compile .ascii ":first-child" = .ok ⟨["//*[position() = 1]"]⟩ ∧
      ∃ step predicate,
        toStep Selector.paths ":first-child" .descendant
            { pseudo := some ⟨"first-child", none⟩ } = .ok step ∧
          toStep Selector.paths "" .child { pseudo := some ⟨"not", some ":first-child"⟩ } =
            .ok ⟨.child, .any, [predicate]⟩ ∧
          ¬ (predicate.Holds marked true second ↔ ¬ step.Holds marked true second) := by
  have hx : Compound ":first-child" { pseudo := some ⟨"first-child", none⟩ } :=
    ⟨by decide +kernel, by decide +kernel, by decide +kernel, by decide +kernel⟩
  have hcompile : Selector.compile .ascii ":first-child" = .ok ⟨["//*[position() = 1]"]⟩ := by
    decide +kernel
  have hknown : PseudoClass.ofName? "first-child" = some .firstChild := by decide +kernel
  have hfirst : toStep Selector.paths ":first-child" .descendant
      { pseudo := some ⟨"first-child", none⟩ } =
      .ok ⟨.descendant, .any, [.holds (.compare .equal .position (.integer 1))]⟩ := by
    simp [toStep, pseudoTest, hknown, knownTest, conditions, bind, Except.bind, pure, Except.pure]
  obtain ⟨step, hstep, hnot⟩ := toStep_not hx hcompile
    (s := { pseudo := some ⟨"not", some ":first-child"⟩ }) rfl "" .child
  have hsource : String.ofList (trim ":first-child".toList) = ":first-child" := by decide +kernel
  rw [hsource, hfirst] at hstep
  obtain rfl := Except.ok.inj hstep
  refine ⟨hx, hcompile, _, _, hfirst, hnot, ?_⟩
  rw [Predicate.avoids_single_iff, Step.holds_iff, Step.holds_iff]
  simp [Predicate.Holds, Condition.Holds, Number.value?, Relation.holds, marked, second,
    Place.alone]

end Segment

end SelectorPath
