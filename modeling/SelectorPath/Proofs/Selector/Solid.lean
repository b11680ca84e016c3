/-
Every path of a selector has solid steps.

What a selector says about an element goes into a step in two ways. Values are
written as literals, which are solid whatever they contain. Names are written
as they are; those that can be read from a text are words.

* `Segment.WellNamed`: the names of a segment are words.
* `Segment.wellNamed_of_read`: this holds for every segment that can be read.
* `Segment.isSolid_of_toStep`: the step of such a segment is solid, if the
  paths inside its pseudo-class are.
* `Selector.isSolid_of_paths`: hence, by induction over the length of the text,
  all steps of all paths of a selector are solid, however deep it is nested.
-/
import Mathlib.Data.List.TakeWhile
import SelectorPath.Proofs.Selector.Parsed
import SelectorPath.Proofs.XPath.Pieces

namespace SelectorPath

open XPath

/-! ### Names that can be read are words -/

/-- Symbols of names do not end a word. -/
lemma isWord_of_all_isName {text : List Char} (h : ∀ c ∈ text, Symbol.isName c = true) :
    IsWord (String.ofList text) :=
  isWord_of_class (p := Symbol.isName) (by decide) (by simpa using h)

/-- A name that was read is a word. -/
lemma isWord_of_readName {text name rest : List Char} (h : Text.readName text = some (name, rest)) :
    IsWord (String.ofList name) := by
  obtain ⟨rfl, -, -⟩ := Text.readName_eq_some h
  exact isWord_of_all_isName fun c hc => List.mem_takeWhile_imp hc

/-- The value that is searched for is a literal, and only the name has to be a word. -/
lemma wellNamed_tokenCondition {name token : String} (h : IsWord name) :
    (tokenCondition name token).WellNamed :=
  ⟨⟨trivial, h, trivial⟩, trivial⟩

namespace AttributeTest

/-- The name of a test has been checked symbol by symbol. -/
lemma isWord_of_checked {body name : List Char} {op : Operator} {value : Option String}
    {test : AttributeTest} (h : checked body name op value = .ok test) : IsWord test.name := by
  rw [checked] at h
  split_ifs at h with hempty hname
  obtain rfl := by simpa using h
  have hall : name.all isNameSymbol = true := by simpa using hname
  exact isWord_of_class (p := isNameSymbol) (by decide) (by simpa using hall)

/-- The name of a test is a word, however the operator was found. -/
lemma isWord_of_ofBody {body : List Char} {test : AttributeTest} (h : ofBody body = .ok test) :
    IsWord test.name := by
  rw [ofBody] at h
  obtain ⟨⟨op, name⟩, -, h⟩ := Error.bind_eq_ok.mp h
  exact isWord_of_checked h

/-- What an attribute test asks has no other attribute name than its own. -/
lemma wellNamed_condition {test : AttributeTest} (h : IsWord test.name) :
    test.condition.WellNamed := by
  rw [condition]
  cases test.op with
  | plain =>
      dsimp only
      split_ifs
      · exact ⟨h, trivial⟩
      · exact h
  | namePrefix =>
      dsimp only
      split_ifs <;> exact ⟨trivial, trivial⟩
  | absent => exact h
  | startsWith | endsWith | contains => exact ⟨h, trivial⟩
  | notEquals => exact ⟨h, trivial⟩
  | includes => exact wellNamed_tokenCondition h

end AttributeTest

namespace Segment

/-- The element name of a segment is a word and not empty, and its attribute
names are words. -/
def WellNamed (s : Segment) : Prop :=
  (∀ test ∈ s.tag, IsWord test.text ∧ test.text ≠ "") ∧ ∀ a ∈ s.attributes, IsWord a.name

/-- A tag is a name or the star. -/
lemma isWord_of_readTag {text : List Char} {test : NodeTest} (h : (readTag text).1 = some test) :
    IsWord test.text ∧ test.text ≠ "" := by
  rw [readTag.eq_def] at h
  split at h
  · obtain rfl := by simpa using h
    decide
  · split at h
    · next name rest hname =>
        obtain rfl := by simpa using h
        have hne := (Text.readName_eq_some hname).2.2
        exact ⟨isWord_of_readName hname, by simpa [NodeTest.text] using hne⟩
    · simp at h

/-- Along the recursion of the reader, test by test. -/
lemma isWord_of_readAttributes {text rest : List Char} {tests : List AttributeTest}
    (h : readAttributes text = .ok (tests, rest)) : ∀ a ∈ tests, IsWord a.name := by
  fun_induction readAttributes text generalizing tests with
  | case1 text body after hbody ih =>
      obtain ⟨test, htest, h⟩ := Error.bind_eq_ok.mp h
      obtain ⟨⟨more, last⟩, hread, hret⟩ := Error.bind_eq_ok.mp h
      obtain ⟨rfl, rfl⟩ := Prod.mk.inj (Error.pure_eq_ok.mp hret)
      intro a ha
      rcases List.mem_cons.mp ha with rfl | ha
      · exact AttributeTest.isWord_of_ofBody htest
      · exact ih hread a ha
  | case2 => simp at h
  | case3 =>
      obtain ⟨rfl, rfl⟩ := by simpa using h
      simp

/-- All the names in a segment that was read are words. -/
lemma wellNamed_of_readCompound {text rest : List Char} {segment : Segment}
    (h : readCompound text = .ok (segment, rest)) : segment.WellNamed := by
  rw [readCompound] at h
  obtain ⟨⟨id, afterId⟩, -, h⟩ := Error.bind_eq_ok.mp h
  obtain ⟨⟨classes, afterClasses⟩, -, h⟩ := Error.bind_eq_ok.mp h
  obtain ⟨⟨attributes, afterAttributes⟩, hattributes, h⟩ := Error.bind_eq_ok.mp h
  obtain ⟨⟨pseudo, afterPseudo⟩, -, h⟩ := Error.bind_eq_ok.mp h
  dsimp only at h
  split_ifs at h
  · obtain ⟨rfl, rfl⟩ := by simpa using h
    exact ⟨fun test htest => isWord_of_readTag htest, isWord_of_readAttributes hattributes⟩
  · split at h <;> simp at h

/-- The names of a segment that was read are words. -/
theorem wellNamed_of_read {text rest : List Char} {segment : Segment}
    (h : read text = .ok (segment, rest)) : segment.WellNamed := by
  obtain ⟨compound, after, combinator, hcompound, -, rfl⟩ := read_eq_ok h
  have hnames : compound.WellNamed := wellNamed_of_readCompound hcompound
  exact ⟨hnames.1, hnames.2⟩

/-! ### Steps -/

/-- Each part of a segment gives a condition on an attribute, of which the name is a word. -/
lemma wellNamed_conditions {s : Segment} (h : s.WellNamed) : ∀ c ∈ s.conditions, c.WellNamed := by
  intro c hc
  simp only [conditions, List.mem_append, List.mem_map] at hc
  rcases hc with (⟨id, -, rfl⟩ | ⟨token, -, rfl⟩) | ⟨test, htest, rfl⟩
  · have hid : IsWord "id" := by decide
    exact ⟨hid, trivial⟩
  · exact wellNamed_tokenCondition (by decide)
  · exact AttributeTest.wellNamed_condition (h.2 test htest)

/-- Conditions on positions have no names of attributes. -/
lemma wellNamed_positions (positions : Positions) : positions.condition.WellNamed := by
  cases positions with
  | odd | even => exact ⟨trivial, trivial⟩
  | exactly i => trivial
  | every step offset =>
      rw [Positions.condition]
      split_ifs <;> trivial

lemma wellNamed_of_positionCondition {pseudo : Pseudo} {c : Condition}
    (h : pseudo.positionCondition = .ok c) : c.WellNamed := by
  obtain ⟨argument, -, h⟩ := Error.bind_eq_ok.mp h
  split at h
  · next positions _ =>
      obtain rfl := by simpa using h
      exact wellNamed_positions positions
  · simp at h

lemma wellNamed_of_containsCondition {pseudo : Pseudo} {c : Condition}
    (h : pseudo.containsCondition = .ok c) : c.WellNamed := by
  obtain ⟨argument, -, h⟩ := Error.bind_eq_ok.mp h
  split at h
  · simp at h
  · dsimp only at h
    split_ifs at h <;> obtain rfl := by simpa using h
    · exact ⟨trivial, trivial⟩
    · trivial

/-- Counting siblings needs a test for them, which is a tag or the star. -/
lemma wellNamed_siblingCondition {test : NodeTest} {position : Condition}
    (h : position.WellNamed) : (siblingCondition test position).WellNamed := by
  cases test with
  | any => exact h
  | named name => exact ⟨⟨trivial, trivial⟩, h⟩

/-- The paths that a compiler gives are solid. -/
def Nested.IsSolid (nested : Nested) : Prop :=
  ∀ inner paths, nested inner = .ok paths → ∀ p ∈ paths, p.IsSolid

section Steps

variable {nested : Nested} {source : String}

/-- A pseudo-class leaves a step with its own node test or with none, and asks
for something that can stand in a predicate. -/
lemma enclosed_of_knownTest (hnested : nested.IsSolid) {test test' : NodeTest} {pseudo : Pseudo}
    {known : PseudoClass} {predicate : Predicate}
    (h : knownTest nested source test pseudo known = .ok (test', predicate)) :
    (test' = test ∨ test' = .any) ∧ ∀ folding, Enclosed (predicate.render folding) := by
  have hholds : ∀ {c : Condition}, c.WellNamed →
      ∀ folding, Enclosed ((Predicate.holds c).render folding) := by
    intro c hc folding
    rw [Predicate.render]
    exact (Condition.solid_render folding hc).enclosed
  cases known with
  | firstChild | lastChild | empty | notEmpty =>
      obtain ⟨rfl, rfl⟩ := by simpa [knownTest] using h
      exact ⟨.inl rfl, hholds trivial⟩
  | nthChild =>
      obtain ⟨position, hposition, h⟩ := Error.bind_eq_ok.mp h
      obtain ⟨rfl, rfl⟩ := Prod.mk.inj (Error.pure_eq_ok.mp h)
      -- the test of the element moves into the predicate, and `*` takes its place
      have hnamed := wellNamed_of_positionCondition (Error.blame_eq_ok.mp hposition)
      exact ⟨.inr rfl, hholds (wellNamed_siblingCondition hnamed)⟩
  | nthOfType =>
      obtain ⟨position, hposition, h⟩ := Error.bind_eq_ok.mp h
      obtain ⟨rfl, rfl⟩ := Prod.mk.inj (Error.pure_eq_ok.mp h)
      exact ⟨.inl rfl, hholds (wellNamed_of_positionCondition (Error.blame_eq_ok.mp hposition))⟩
  | contains =>
      obtain ⟨condition, hcondition, h⟩ := Error.bind_eq_ok.mp h
      obtain ⟨rfl, rfl⟩ := Prod.mk.inj (Error.pure_eq_ok.mp h)
      exact ⟨.inl rfl, hholds (wellNamed_of_containsCondition (Error.blame_eq_ok.mp hcondition))⟩
  | has =>
      obtain ⟨inner, -, h⟩ := Error.bind_eq_ok.mp h
      obtain ⟨paths, hpaths, h⟩ := Error.bind_eq_ok.mp h
      obtain ⟨rfl, rfl⟩ := Prod.mk.inj (Error.pure_eq_ok.mp h)
      -- nested paths stand in parentheses or brackets, where solid texts are enclosed
      exact ⟨.inl rfl, fun folding => enclosed_reaches folding (hnested _ _ hpaths)⟩
  | not =>
      obtain ⟨inner, -, h⟩ := Error.bind_eq_ok.mp h
      obtain ⟨paths, hpaths, h⟩ := Error.bind_eq_ok.mp h
      obtain ⟨rfl, rfl⟩ := Prod.mk.inj (Error.pure_eq_ok.mp h)
      exact ⟨.inl rfl, fun folding => enclosed_avoids folding (hnested _ _ hpaths)⟩

/-- The step of a segment is solid, if the selectors inside its pseudo-class
are. -/
theorem isSolid_of_toStep (hnested : nested.IsSolid) {axis : Axis} {s : Segment}
    (hs : s.WellNamed) {step : Step} (h : s.toStep nested source axis = .ok step) :
    step.IsSolid := by
  have htag : IsWord (s.tag.getD .any).text ∧ (s.tag.getD .any).text ≠ "" := by
    cases htag : s.tag with
    | none => decide
    | some test => exact hs.1 test htag
  have hconditions : ∀ folding, ∀ p ∈ s.conditions.map (Predicate.render folding ∘ .holds),
      Enclosed p := by
    intro folding p hp
    obtain ⟨c, hc, rfl⟩ := List.mem_map.mp hp
    rw [Function.comp_apply, Predicate.render]
    exact (Condition.solid_render folding (wellNamed_conditions hs c hc)).enclosed
  rw [toStep] at h
  split at h
  · next pseudo _ =>
      obtain ⟨⟨test, predicate⟩, hpseudo, h⟩ := Error.bind_eq_ok.mp h
      obtain rfl := Error.pure_eq_ok.mp h
      rw [pseudoTest] at hpseudo
      split at hpseudo
      · obtain ⟨htest, hpredicate⟩ := enclosed_of_knownTest hnested hpseudo
        have hword : IsWord test.text ∧ test.text ≠ "" := by
          rcases htest with rfl | rfl
          · exact htag
          · decide
        intro folding
        rw [Step.body, Predicate.renderAll_eq_map]
        refine ⟨bracketed_ne_empty hword.2 _, solid_bracketed hword.1 fun p hp => ?_⟩
        rw [List.map_append, List.map_map, List.mem_append] at hp
        rcases hp with hp | hp
        · exact hconditions folding p hp
        · obtain rfl := by simpa using hp
          exact hpredicate folding
      · simp at hpseudo
  · split_ifs at h
    obtain rfl := by simpa using h
    intro folding
    rw [Step.body, Predicate.renderAll_eq_map, List.map_map]
    exact ⟨bracketed_ne_empty htag.2 _, solid_bracketed htag.1 (hconditions folding)⟩

end Steps

end Segment

/-! ### Chains, clauses and unions -/

namespace Clause

variable {nested : Segment.Nested}

/-- Segment by segment, along the recursion over the chain. -/
theorem isSolid_of_steps (hnested : nested.IsSolid) {source : String} {axis : Axis}
    {chain : List Char} {ss : List Step} (h : steps nested source axis chain = .ok ss) :
    ∀ s ∈ ss, s.IsSolid := by
  fun_induction steps nested source axis chain generalizing ss with
  | case1 => simp at h
  | case2 =>
      obtain rfl := by simpa using h
      simp
  | case3 => simp at h
  | case4 axis chain _ segment rest hread ih =>
      obtain ⟨step, hstep, h⟩ := Error.bind_eq_ok.mp h
      obtain ⟨more, hmore, h⟩ := Error.bind_eq_ok.mp h
      obtain rfl := Error.pure_eq_ok.mp h
      intro s hs
      rcases List.mem_cons.mp hs with rfl | hs
      · exact Segment.isSolid_of_toStep hnested (Segment.wellNamed_of_read hread) hstep
      · exact ih hmore s hs

/-- A clause is solid, with its property, if the selectors inside it are. -/
theorem isSolid_of_toPath (hnested : nested.IsSolid) {clause : List Char} {path : Path}
    (h : toPath nested clause = .ok path) : path.IsSolid := by
  rw [toPath] at h
  split_ifs at h
  rw [pathOfTrimmed] at h
  obtain ⟨⟨chain, property⟩, -, h⟩ := Error.bind_eq_ok.mp h
  dsimp only at h
  split_ifs at h
  obtain ⟨ss, hsteps, h⟩ := Error.bind_eq_ok.mp h
  obtain rfl := Error.pure_eq_ok.mp h
  exact isSolid_of_steps hnested hsteps

theorem isSolid_of_unionPaths (hnested : nested.IsSolid) {selector : List Char}
    {paths : List Path} (h : unionPaths nested selector = .ok paths) : ∀ p ∈ paths, p.IsSolid := by
  obtain ⟨clauses, -, h⟩ := Error.bind_eq_ok.mp h
  intro p hp
  obtain ⟨clause, -, hclause⟩ := Error.exists_of_mem_mapM h hp
  exact isSolid_of_toPath hnested hclause

end Clause

namespace Selector

/-- All steps of all paths of a selector are solid, those of the selectors
inside its pseudo-classes included. -/
theorem isSolid_of_paths {selector : List Char} {ps : List Path} (h : paths selector = .ok ps) :
    ∀ p ∈ ps, p.IsSolid := by
  induction hn : selector.length using Nat.strongRecOn generalizing selector ps with
  | _ n ih =>
      rw [paths] at h
      refine Clause.isSolid_of_unionPaths (fun inner inners hinner => ?_) h
      split_ifs at hinner with hlt
      · exact ih inner.length (hn ▸ hlt) hinner rfl
      · obtain rfl := by simpa using hinner
        simp

lemma isSolid_paths : Segment.Nested.IsSolid paths := fun _ _ h => isSolid_of_paths h

end Selector

end SelectorPath
