/-
Classes are tokens of the attribute `class`.

The condition for a class searches the attribute for the class between two spaces.
Since classes are read as names, they are not empty and have no white space in them,
so the search finds the class exactly if it is one of the tokens of the attribute. A
step accepts the elements that have all classes among these tokens, in whatever order
and however often the classes are written.

* `Step.Accepts`: the elements that pass the node test of a step and all its
  predicates.
* `Segment.isToken_of_parse`: the classes of a segment that is read.
* `Segment.exists_judges_class`: the condition for one class.
* `Segment.classes_are_tokens`: the predicates of a segment with classes alone hold of
  the elements that have all the classes among their tokens.
-/
import SelectorPath.Proofs.Selector.Attributes

namespace SelectorPath

open XPath Text

/-- The tokens of the attribute `class`, none if it is missing. -/
def XPath.Element.classes (element : Element) : List (List Char) :=
  words (element.attributes["class"]?.getD "").toList

/-- The elements that pass the node test of a step and all its predicates. -/
def XPath.Step.Accepts (step : Step) (folding : Folding) (element : Element) : Prop :=
  passes step.test element.name = true ∧
    ∀ p ∈ step.predicates, Judges (p.render folding) (.element element) true

namespace Segment

/-- A text that can be a token: it is not empty and has no white space in it. -/
structure IsToken (token : String) : Prop where
  ne_empty : token ≠ ""
  solid : ∀ c ∈ token.toList, isXmlSpace c = false

/-- A class is spelled with symbols of names, among which there are no blanks. -/
lemma SpelledClasses.isToken {classes : List String} {after text : List Char}
    (h : SpelledClasses after classes text) : ∀ c ∈ classes, IsToken c := by
  induction h with
  | nil => simp
  | cons hname _ ih =>
      refine List.forall_mem_cons.mpr ⟨⟨?_, ?_⟩, ih⟩
      · exact fun hempty => hname.ne_nil (by simpa using hempty)
      · intro c hc
        rw [String.toList_ofList] at hc
        exact isXmlSpace_of_isWordSymbol (by simp [isWordSymbol, hname.symbols c hc])

lemma isToken_of_parse {text : String} {s : Segment} {n : Nat} (h : parse text = .ok (s, n)) :
    ∀ c ∈ s.classes, IsToken c := by
  obtain ⟨taken, after, -, -, hspelled⟩ := parse_eq_ok_iff.mp h
  obtain ⟨_, _, _, _, _, _, _, -, -, -, -, hclasses, -⟩ := hspelled
  exact hclasses.isToken

/-- The condition for a class is true of the elements that have it among their
tokens. -/
lemma exists_judges_class {token : String} (h : IsToken token) (folding : Folding)
    (element : Element) :
    ∃ verdict, Judges ((tokenCondition "class" token).render folding) (.element element) verdict ∧
      (verdict = true ↔ token.toList ∈ element.classes) := by
  have hclass : IsWordText "class" := by decide
  refine ⟨_, (spells_tokenCondition hclass token folding).judges
    (object?_tokenExpression "class" token element), ?_⟩
  rw [Object.toTruth_decide, padded_infix_normalizeSpace_iff]
  constructor
  · rintro (hmem | ⟨hnil, -⟩ | ⟨row, hlength, hrow, htoken⟩)
    · exact hmem
    · exact absurd (String.ext hnil) h.ne_empty
    · have hspace := h.solid ' ' (htoken ▸ space_mem_intercalate hlength)
      simp [isXmlSpace] at hspace
  · exact .inl

/-- The condition for a class looks for a token of the attribute. -/
lemma judges_class_iff {token : String} (h : IsToken token) (folding : Folding)
    (element : Element) :
    Judges ((tokenCondition "class" token).render folding) (.element element) true ↔
      token.toList ∈ element.classes := by
  obtain ⟨verdict, hjudges, htruth⟩ := exists_judges_class h folding element
  constructor
  · intro htrue
    exact htruth.mp (hjudges.unique htrue)
  · intro hmem
    rwa [htruth.mpr hmem] at hjudges

/-- The predicates for classes. -/
def classPredicates (classes : List String) : List Predicate :=
  classes.map fun c => .holds (tokenCondition "class" c)

/-- They are all true if all classes are among the tokens. -/
lemma forall_classPredicates_iff {classes : List String} (h : ∀ c ∈ classes, IsToken c)
    (folding : Folding) (element : Element) :
    (∀ p ∈ classPredicates classes, Judges (p.render folding) (.element element) true) ↔
      ∀ c ∈ classes, c.toList ∈ element.classes := by
  rw [classPredicates, List.forall_mem_map]
  exact forall₂_congr fun c hc => judges_class_iff (h c hc) folding element

/-- The step of a segment with only a tag and classes. -/
lemma toStep_of_classes {s : Segment} (hid : s.id = none) (hattributes : s.attributes = [])
    (hpseudo : s.pseudo = none) (hpart : s.tag.isSome = true ∨ s.classes ≠ []) (nested : Nested)
    (source : String) (axis : Axis) :
    s.toStep nested source axis = .ok ⟨axis, s.tag.getD .any, classPredicates s.classes⟩ := by
  have hconditions : s.conditions = s.classes.map (tokenCondition "class") := by
    simp [conditions, hid, hattributes]
  have hbare : ¬ (s.tag.isNone && s.conditions.isEmpty) = true := by
    rw [hconditions]
    rcases hpart with htag | hclasses
    · simp [Option.isNone_eq_false_iff.mpr htag]
    · simp [hclasses]
  rw [toStep, hpseudo]
  show (if _ then _ else _) = _
  rw [if_neg hbare, hconditions, List.map_map]
  rfl

/-- **Classes are tokens.** A segment that is read and has only a tag and classes
becomes a step with one predicate for each class, which is true of an element exactly
if the class is one of the tokens of its attribute `class`. So they are all true
exactly if all classes are, and the same classes in another order or number make a step
that accepts the same elements. -/
theorem classes_are_tokens {text : String} {s : Segment} {n : Nat}
    (h : parse text = .ok (s, n)) (hid : s.id = none) (hattributes : s.attributes = [])
    (hpseudo : s.pseudo = none) (nested : Nested) (source : String) (axis : Axis)
    (folding : Folding) :
    ∃ step, s.toStep nested source axis = .ok step ∧ step.test = s.tag.getD .any ∧
      List.Forall₂ (fun p c => ∀ element, ∃ verdict,
        Judges (p.render folding) (.element element) verdict ∧
          (verdict = true ↔ c.toList ∈ element.classes)) step.predicates s.classes ∧
      (∀ element, (∀ p ∈ step.predicates, Judges (p.render folding) (.element element) true) ↔
        ∀ c ∈ s.classes, c.toList ∈ element.classes) ∧
      ∀ classes : List String, (∀ c, c ∈ classes ↔ c ∈ s.classes) →
        ∃ step', toStep nested source axis { s with classes := classes } = .ok step' ∧
          ∀ element, step'.Accepts folding element ↔ step.Accepts folding element := by
  have htokens := isToken_of_parse h
  have hpart : s.tag.isSome = true ∨ s.classes ≠ [] := by
    obtain ⟨taken, after, -, -, hspelled⟩ := parse_eq_ok_iff.mp h
    obtain ⟨_, _, _, _, _, _, _, -, -, -, -, -, -, -, -, -, hpart⟩ := hspelled
    simpa [isConstrained, hid, hattributes, hpseudo] using hpart
  refine ⟨_, toStep_of_classes hid hattributes hpseudo hpart nested source axis, rfl, ?_,
    forall_classPredicates_iff htokens folding, fun classes hsame => ?_⟩
  · refine List.forall₂_map_left_iff.mpr (List.forall₂_same.mpr fun c hc element => ?_)
    exact exists_judges_class (htokens c hc) folding element
  · have hpart' : s.tag.isSome = true ∨ classes ≠ [] := by
      refine hpart.imp_right fun hne hnil => ?_
      obtain ⟨c, hc⟩ := List.exists_mem_of_ne_nil s.classes hne
      simpa [hnil] using (hsame c).mpr hc
    refine ⟨_, toStep_of_classes (s := { s with classes := classes }) hid hattributes hpseudo
      hpart' nested source axis, fun element => ?_⟩
    have htokens' : ∀ c ∈ classes, IsToken c := fun c hc => htokens c ((hsame c).mp hc)
    refine and_congr_right fun _ => ?_
    rw [forall_classPredicates_iff htokens', forall_classPredicates_iff htokens]
    simp only [hsame]

/-- Two classes among three tokens, and the same classes in another order and one of
them twice. -/
theorem classes_are_tokens_shuffled :
    parse "a.foo.bar" = .ok ({ tag := some (.named "a"), classes := ["foo", "bar"] }, 9) ∧
      ∃ step, toStep Selector.paths "a.foo.bar" .descendant
          { tag := some (.named "a"), classes := ["foo", "bar"] } = .ok step ∧
        step.Accepts .ascii ⟨"a", {("class", " bar\tfoo-x\n foo")}⟩ ∧
        ¬ step.Accepts .ascii ⟨"a", {("class", "bar foo-x")}⟩ ∧
        ∃ step', toStep Selector.paths "a.foo.bar" .descendant
            { tag := some (.named "a"), classes := ["bar", "foo", "bar"] } = .ok step' ∧
          ∀ element, step'.Accepts .ascii element ↔ step.Accepts .ascii element := by
  have hparse : parse "a.foo.bar" =
      .ok ({ tag := some (.named "a"), classes := ["foo", "bar"] }, 9) := by decide +kernel
  obtain ⟨step, hstep, htest, -, hall, hshuffled⟩ :=
    classes_are_tokens hparse rfl rfl rfl Selector.paths "a.foo.bar" .descendant .ascii
  refine ⟨hparse, step, hstep, ⟨by rw [htest]; rfl, (hall _).mpr ?_⟩, fun haccepts => ?_,
    hshuffled _ (by simp)⟩
  · decide
  · have hfoo := (hall _).mp haccepts.2 "foo" (by simp)
    revert hfoo
    decide

end Segment

end SelectorPath
