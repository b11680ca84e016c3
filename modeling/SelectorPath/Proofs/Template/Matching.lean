/-
Templates and the elements that their selectors match.

A template is meant to describe an element that its selector matches. Every attribute
has one value only, so this fails where one test overwrites what another asks for: a
`[name]` behind a `[name=value]` empties the value, and classes take the place of the
value that a test on `class` gives.

* `Segment.Matches`: the elements that pass all tests of a segment.
* `Segment.accepts_iff_matches`: they are those that the step of the segment accepts.
* `Template.element`: the element that a template describes.
* `Segment.Keeps`: nothing that a test asks for is overwritten.
* `Template.element_matches_iff`: where some element matches, the element of the
  template matches exactly if nothing is overwritten.
* `Template.element_overwritten`: selectors that match an element, but not the one of
  their template.
-/
import SelectorPath.Proofs.Selector.Classes
import SelectorPath.Proofs.Template.Contents

namespace SelectorPath

open XPath Text

/-- The classes of an element are the words of its attribute. -/
lemma XPath.Element.classes_of_getElem? {element : Element} {v : String}
    (h : element.attributes["class"]? = some v) : element.classes = words v.toList := by
  rw [classes, h, Option.getD_some]

namespace Segment

/-- The element passes all tests of the segment. -/
structure Matches (s : Segment) (element : Element) : Prop where
  tag : passes (s.tag.getD .any) element.name = true
  id : ∀ id ∈ s.id, element.attributes["id"]? = some id
  classes : ∀ c ∈ s.classes, c.toList ∈ element.classes
  tests : ∀ test ∈ s.attributes, test.Asks element

/-- What the tests ask for is not overwritten. Beside classes, a value for `class` is
just these with single spaces between them. Of other attributes, the last test gives a
value if one before it gives a value that is not empty, unless it is the id. -/
structure Keeps (s : Segment) : Prop where
  classes : ∀ test ∈ s.attributes, test.name = "class" → s.classes ≠ [] →
    ∀ v ∈ test.value, v = " ".intercalate s.classes
  values : ∀ test ∈ s.attributes, ¬ (test.name = "class" ∧ s.classes ≠ []) →
    ¬ (test.name = "id" ∧ s.id.isSome) → ∀ v ∈ test.value, v ≠ "" →
      ∀ last ∈ s.lastTest? test.name, last.value.isSome

/-- If a name is tested at all, there is a last test of it. -/
lemma lastTest?_of_mem {s : Segment} {test : AttributeTest} (h : test ∈ s.attributes) :
    ∃ last ∈ s.attributes, last.name = test.name ∧ s.lastTest? test.name = some last := by
  have hmem : test ∈ s.attributes.filter (·.name = test.name) :=
    List.mem_filter.mpr ⟨h, decide_eq_true rfl⟩
  obtain ⟨last, hlast⟩ := Option.isSome_iff_exists.mp
    (List.getLast?_isSome.mpr (List.ne_nil_of_mem hmem))
  obtain ⟨hattributes, hname⟩ := List.mem_filter.mp (List.mem_of_getLast? hlast)
  exact ⟨last, hattributes, of_decide_eq_true hname, hlast⟩

end Segment

/-- A plain test asks for the attribute and, if it has a value, for this value. -/
lemma AttributeTest.asks_plain_iff {test : AttributeTest} (h : test.op = .plain)
    {element : Element} :
    test.Asks element ↔
      ∃ u, element.attributes[test.name]? = some u ∧ ∀ v ∈ test.value, u = v := by
  obtain ⟨name, op, value⟩ := test
  subst h
  exact Iff.rfl

/-- The condition of a plain test is true of the elements that the test asks for. -/
lemma AttributeTest.judges_plain_iff {test : AttributeTest} (hformed : test.WellFormed)
    (h : test.op = .plain) (folding : Folding) (element : Element) :
    Judges (test.condition.render folding) (.element element) true ↔ test.Asks element := by
  obtain ⟨verdict, hjudges, htruth⟩ := exists_judges hformed folding element
  have hexcess : ¬ test.Excess element := by
    obtain ⟨name, op, value⟩ := test
    subst h
    exact id
  rw [or_iff_left hexcess] at htruth
  constructor
  · exact fun htrue => htruth.mp (hjudges.unique htrue)
  · intro hasks
    rwa [htruth.mpr hasks] at hjudges

namespace Segment

/-- The condition of an id is that of a plain test. -/
lemma judges_id_iff (id : String) (folding : Folding) (element : Element) :
    Judges ((Condition.equal ⟨.close, .attributeValue "id", .literal id⟩).render folding)
        (.element element) true ↔ element.attributes["id"]? = some id := by
  have hletters : "id".toList.all Symbol.isName = true := by decide
  have hformed : AttributeTest.WellFormed ⟨"id", .plain, some id⟩ :=
    ⟨by simp, fun c hc => .inl (List.all_eq_true.mp hletters c hc), nofun, nofun⟩
  refine (AttributeTest.judges_plain_iff hformed rfl folding element).trans ?_
  rw [AttributeTest.asks_plain_iff rfl]
  simp

lemma wellFormed_of_parse {text : String} {s : Segment} {n : Nat} (h : parse text = .ok (s, n)) :
    ∀ test ∈ s.attributes, test.WellFormed := by
  obtain ⟨taken, after, -, -, hspelled⟩ := parse_eq_ok_iff.mp h
  obtain ⟨_, _, _, _, _, _, _, -, -, -, -, -, hattributes, -⟩ := hspelled
  exact hattributes.wellFormed

/-- The step of a segment without a pseudo-class. -/
lemma toStep_of_parse {text : String} {s : Segment} {n : Nat} (h : parse text = .ok (s, n))
    (hpseudo : s.pseudo = none) (nested : Nested) (source : String) (axis : Axis) :
    s.toStep nested source axis = .ok ⟨axis, s.tag.getD .any, s.conditions.map .holds⟩ := by
  have hbare : ¬ (s.tag.isNone && s.conditions.isEmpty) = true := by
    obtain ⟨taken, after, -, -, hspelled⟩ := parse_eq_ok_iff.mp h
    obtain ⟨_, _, _, _, _, _, _, -, -, -, -, -, -, -, -, -, hpart⟩ := hspelled
    rw [isConstrained, hpseudo] at hpart
    cases htag : s.tag with
    | some tag => simp
    | none =>
        rw [htag] at hpart
        cases hid : s.id <;> cases hclasses : s.classes <;> cases htests : s.attributes <;>
          simp_all [conditions]
  rw [toStep, hpseudo]
  show (if _ then _ else _) = _
  rw [if_neg hbare]

/-- **The step of a segment with plain tests accepts the elements that match.** -/
theorem accepts_iff_matches {text : String} {s : Segment} {n : Nat}
    (h : parse text = .ok (s, n)) (hpseudo : s.pseudo = none)
    (hplain : ∀ test ∈ s.attributes, test.op = .plain) (nested : Nested) (source : String)
    (axis : Axis) (folding : Folding) :
    ∃ step, s.toStep nested source axis = .ok step ∧
      ∀ element, step.Accepts folding element ↔ s.Matches element := by
  refine ⟨_, toStep_of_parse h hpseudo nested source axis, fun element => ?_⟩
  have hid : (∀ id ∈ s.id.toList, Judges ((Condition.equal ⟨.close, .attributeValue "id",
      .literal id⟩).render folding) (.element element) true) ↔
        ∀ id ∈ s.id, element.attributes["id"]? = some id := by
    simp only [Option.mem_toList, Option.mem_def, judges_id_iff]
  have hclasses : (∀ c ∈ s.classes, Judges ((tokenCondition "class" c).render folding)
      (.element element) true) ↔ ∀ c ∈ s.classes, c.toList ∈ element.classes :=
    forall₂_congr fun c hc => judges_class_iff (isToken_of_parse h c hc) folding element
  have htests : (∀ test ∈ s.attributes, Judges (test.condition.render folding)
      (.element element) true) ↔ ∀ test ∈ s.attributes, test.Asks element :=
    forall₂_congr fun test htest => AttributeTest.judges_plain_iff
      (wellFormed_of_parse h test htest) (hplain test htest) folding element
  have hall : (∀ p ∈ s.conditions.map Predicate.holds, Judges (p.render folding)
      (.element element) true) ↔ ((∀ id ∈ s.id, element.attributes["id"]? = some id) ∧
        ∀ c ∈ s.classes, c.toList ∈ element.classes) ∧
          ∀ test ∈ s.attributes, test.Asks element := by
    rw [List.forall_mem_map, conditions, List.forall_mem_append, List.forall_mem_append,
      List.forall_mem_map, List.forall_mem_map, List.forall_mem_map]
    exact and_congr (and_congr hid hclasses) htests
  rw [Step.Accepts, hall]
  constructor
  · rintro ⟨htag, ⟨hid, hclasses⟩, htests⟩
    exact ⟨htag, hid, hclasses, htests⟩
  · rintro ⟨htag, hid, hclasses, htests⟩
    exact ⟨htag, ⟨hid, hclasses⟩, htests⟩

end Segment

namespace Template

/-- The element that a template describes. -/
def element (t : Template) : Element := ⟨t.tag, Std.ExtTreeMap.ofList t.attributes⟩

/-- An attribute of the element has the value that the template gives. -/
lemma getElem?_element {t : Template} (h : (t.attributes.map Prod.fst).Nodup) (x : String) :
    t.element.attributes[x]? = t.attribute? x := by
  cases hx : t.attribute? x with
  | none =>
      refine Std.ExtTreeMap.getElem?_ofList_of_contains_eq_false ?_
      have hnone := List.find?_eq_none.mp (Option.map_eq_none_iff.mp hx)
      rw [← Bool.not_eq_true, List.contains_iff_mem, List.mem_map]
      rintro ⟨pair, hpair, rfl⟩
      exact hnone pair hpair (beq_self_eq_true _)
  | some value =>
      obtain ⟨⟨name, _⟩, hfind, rfl⟩ := Option.map_eq_some_iff.mp hx
      obtain rfl : name = x := by simpa using List.find?_some hfind
      refine Std.ExtTreeMap.getElem?_ofList_of_mem Std.ReflCmp.compare_self ?_
        (List.mem_of_find?_eq_some hfind)
      refine (List.pairwise_map.mp h).imp fun hne => ?_
      simpa using hne

section

variable {s : Segment} {t : Template}

/-- Classes that are joined by single spaces are the tokens again. -/
lemma classes_element (h : Contents s t) (htokens : ∀ c ∈ s.classes, Segment.IsToken c)
    (hne : s.classes ≠ []) : t.element.classes = s.classes.map String.toList := by
  have hclass : t.element.attributes["class"]? = some (" ".intercalate s.classes) := by
    rw [getElem?_element h.distinct, h.value, if_pos ⟨rfl, hne⟩]
  rw [Element.classes_of_getElem? hclass, String.toList_intercalate]
  refine words_intercalate (List.forall_mem_map.mpr fun c hc => ?_)
  have htoken := htokens c hc
  exact ⟨fun hnil => htoken.ne_empty (String.toList_eq_nil_iff.mp hnil), htoken.solid⟩

/-- The value of an attribute that neither the id nor the classes give. -/
lemma getElem?_element_of_test (h : Contents s t) {x : String}
    (hclass : ¬ (x = "class" ∧ s.classes ≠ [])) (hid : ¬ (x = "id" ∧ s.id.isSome)) :
    t.element.attributes[x]? = (s.lastTest? x).map fun test => test.value.getD "" := by
  rw [getElem?_element h.distinct, h.value, if_neg hclass, if_neg hid]

/-- If the element of the template matches, nothing was overwritten. -/
lemma keeps_of_matches (h : Contents s t) (hplain : ∀ test ∈ s.attributes, test.op = .plain)
    (hmatches : s.Matches t.element) : s.Keeps := by
  constructor
  · intro test htest hname hne v hv
    obtain ⟨u, hu, huv⟩ :=
      (AttributeTest.asks_plain_iff (hplain test htest)).mp (hmatches.tests test htest)
    rw [hname, getElem?_element h.distinct, h.value, if_pos ⟨rfl, hne⟩] at hu
    rw [← huv v hv, Option.some.inj hu]
  · intro test htest hclass hid v hv hnonempty last hlast
    obtain ⟨u, hu, huv⟩ :=
      (AttributeTest.asks_plain_iff (hplain test htest)).mp (hmatches.tests test htest)
    rw [getElem?_element_of_test h hclass hid, Option.mem_def.mp hlast] at hu
    cases hvalue : last.value with
    | some w => rfl
    | none =>
        -- the last test leaves the attribute empty, where `v` is asked for
        simp only [hvalue, Option.map_some, Option.getD_none, Option.some.injEq] at hu
        exact absurd (hu.trans (huv v hv)).symm hnonempty

/-- Where the last test on an attribute gives its value, all tests on it are passed. -/
lemma asks_element_of_test (h : Contents s t) (hkeeps : s.Keeps) {element : Element}
    (hasks : ∀ test ∈ s.attributes, ∃ u, element.attributes[test.name]? = some u ∧
      ∀ v ∈ test.value, u = v) {test : AttributeTest} (htest : test ∈ s.attributes)
    (hclass : ¬ (test.name = "class" ∧ s.classes ≠ []))
    (hid : ¬ (test.name = "id" ∧ s.id.isSome)) :
    ∃ u, t.element.attributes[test.name]? = some u ∧ ∀ v ∈ test.value, u = v := by
  obtain ⟨last, hmem, hname, hlast⟩ := Segment.lastTest?_of_mem htest
  refine ⟨last.value.getD "", ?_, fun v hv => ?_⟩
  · rw [getElem?_element_of_test h hclass hid, hlast, Option.map_some]
  · cases hvalue : last.value with
    | some value =>
        -- both tests are about the one value of the element that matches
        obtain ⟨u, hu, huv⟩ := hasks test htest
        obtain ⟨w, hw, hwv⟩ := hasks last hmem
        rw [hname, hu] at hw
        rw [Option.getD_some, ← hwv value hvalue, ← huv v hv, Option.some.inj hw]
    | none =>
        by_contra hne
        have hsome := hkeeps.values test htest hclass hid v hv
          (fun hempty => hne hempty.symm) last hlast
        simp [hvalue] at hsome

/-- If nothing was overwritten and some element matches, so does the element of the
template. -/
lemma matches_of_keeps (h : Contents s t) (hany : s.tag ≠ some .any)
    (hplain : ∀ test ∈ s.attributes, test.op = .plain)
    (htokens : ∀ c ∈ s.classes, Segment.IsToken c) {element : Element}
    (hmatches : s.Matches element) (hkeeps : s.Keeps) : s.Matches t.element := by
  have hasks : ∀ test ∈ s.attributes, ∃ u, element.attributes[test.name]? = some u ∧
      ∀ v ∈ test.value, u = v := fun test htest =>
    (AttributeTest.asks_plain_iff (hplain test htest)).mp (hmatches.tests test htest)
  have hid : ∀ id ∈ s.id, t.element.attributes["id"]? = some id := by
    intro id hid
    rw [Option.mem_def] at hid
    rw [getElem?_element h.distinct, h.value, if_neg (by simp), if_pos ⟨rfl, by simp [hid]⟩, hid]
  refine ⟨?_, hid, ?_, ?_⟩
  · show passes _ t.tag = true
    rw [h.tag]
    match htag : s.tag with
    | none => rfl
    | some .any => exact absurd htag hany
    | some (.named name) => simp [passes, NodeTest.text]
  · -- the classes are written with single blanks between them, and read back as they were
    intro c hc
    rw [classes_element h htokens (List.ne_nil_of_mem hc)]
    exact List.mem_map_of_mem hc
  · intro test htest
    refine (AttributeTest.asks_plain_iff (hplain test htest)).mpr ?_
    by_cases hclass : test.name = "class" ∧ s.classes ≠ []
    · refine ⟨" ".intercalate s.classes, ?_, fun v hv => ?_⟩
      · rw [getElem?_element h.distinct, h.value, if_pos hclass]
      · exact (hkeeps.classes test htest hclass.1 hclass.2 v hv).symm
    · by_cases hidName : test.name = "id" ∧ s.id.isSome
      · -- the element that matches has the id, so the test asks for nothing else
        obtain ⟨id, hsome⟩ := Option.isSome_iff_exists.mp hidName.2
        obtain ⟨u, hu, huv⟩ := hasks test htest
        rw [hidName.1, hmatches.id id hsome] at hu
        obtain rfl := Option.some.inj hu
        exact ⟨id, by rw [hidName.1, hid id hsome], huv⟩
      · exact asks_element_of_test h hkeeps hasks htest hclass hidName

end

/-- **Templates match where nothing is overwritten.** If some element passes all tests of
a selector that has a template, the element of the template does so exactly if no value
that a test asks for is overwritten: a value for `class` beside classes is just these with
single spaces between them, and where a test gives a value that is not empty, so does the
last test on the same attribute. -/
theorem element_matches_iff {selector : String} {t : Template}
    (ht : ofSelector selector = .ok t) {s : Segment} {n : Nat}
    (hs : Segment.parse (String.ofList (trim selector.toList)) = .ok (s, n))
    (hsome : ∃ element, s.Matches element) : s.Matches t.element ↔ s.Keeps := by
  obtain ⟨s', hplain, rfl⟩ := ofSelector_eq_ok.mp ht
  obtain ⟨rfl, -⟩ := Prod.mk.inj (Except.ok.inj (hs.symm.trans hplain.whole))
  have hcontents := contents_ofPlain s
  obtain ⟨element, hmatches⟩ := hsome
  exact ⟨keeps_of_matches hcontents hplain.tests,
    matches_of_keeps hcontents hplain.tag hplain.tests (Segment.isToken_of_parse hs) hmatches⟩

/-- A value that comes last, and a value for `class` that the classes repeat. -/
theorem element_matches_iff_repeated :
    let selector := "a.nav.main[rel][class='nav main'][rel=next]"
    let s : Segment := ⟨some (.named "a"), none, ["nav", "main"], [⟨"rel", .plain, none⟩,
      ⟨"class", .plain, some "nav main"⟩, ⟨"rel", .plain, some "next"⟩], none, .descendant⟩
    ∃ t, ofSelector selector = .ok t ∧
      Segment.parse (String.ofList (trim selector.toList)) = .ok (s, 43) ∧
        s.Matches ⟨"a", {("class", "nav main"), ("rel", "next")}⟩ ∧ s.Keeps ∧
          s.Matches t.element := by
  intro selector s
  have ht : ofSelector selector = .ok ⟨"a", [("rel", "next"), ("class", "nav main")]⟩ := by
    decide +kernel
  have hs : Segment.parse (String.ofList (trim selector.toList)) = .ok (s, 43) := by
    decide +kernel
  have hmatches : s.Matches ⟨"a", {("class", "nav main"), ("rel", "next")}⟩ := by
    have hclass : ({("class", "nav main"), ("rel", "next")} :
        Std.ExtTreeMap String String)["class"]? = some "nav main" := by simp
    have hrel : ({("class", "nav main"), ("rel", "next")} :
        Std.ExtTreeMap String String)["rel"]? = some "next" := by
      simp [Std.ExtTreeMap.getElem_insert]
    refine ⟨rfl, nofun, ?_, ?_⟩
    · rw [Element.classes_of_getElem? hclass]
      decide
    · simp only [s, AttributeTest.Asks, List.forall_mem_cons, hclass, hrel]
      simp
  have hkeeps : s.Keeps := ⟨by decide, by decide⟩
  exact ⟨_, ht, hs, hmatches, hkeeps, (element_matches_iff ht hs ⟨_, hmatches⟩).mpr hkeeps⟩

/-- A test for presence empties the value that was asked for before, and the classes of a
segment take the place of a value that has them among others. -/
theorem element_overwritten :
    (∃ t s n, ofSelector "a[rel=next][rel]" = .ok t ∧ t.attributes = [("rel", "")] ∧
      Segment.parse "a[rel=next][rel]" = .ok (s, n) ∧
        s.Matches ⟨"a", {("rel", "next")}⟩ ∧ ¬ s.Matches t.element) ∧
    (∃ t s n, ofSelector "p.a[class='a b']" = .ok t ∧ t.attributes = [("class", "a")] ∧
      Segment.parse "p.a[class='a b']" = .ok (s, n) ∧
        s.Matches ⟨"p", {("class", "a b")}⟩ ∧ ¬ s.Matches t.element) := by
  constructor
  · have ht : ofSelector "a[rel=next][rel]" = .ok ⟨"a", [("rel", "")]⟩ := by decide +kernel
    have hs : Segment.parse "a[rel=next][rel]" = .ok (⟨some (.named "a"), none, [],
        [⟨"rel", .plain, some "next"⟩, ⟨"rel", .plain, none⟩], none, .descendant⟩, 16) := by
      decide +kernel
    refine ⟨_, _, _, ht, rfl, hs, ⟨rfl, by simp, by simp, ?_⟩, fun hmatches => ?_⟩
    · simp [AttributeTest.Asks]
    · have hasks := hmatches.tests ⟨"rel", .plain, some "next"⟩ List.mem_cons_self
      simp [AttributeTest.Asks, element] at hasks
  · have ht : ofSelector "p.a[class='a b']" = .ok ⟨"p", [("class", "a")]⟩ := by decide +kernel
    have hs : Segment.parse "p.a[class='a b']" = .ok (⟨some (.named "p"), none, ["a"],
        [⟨"class", .plain, some "a b"⟩], none, .descendant⟩, 16) := by
      decide +kernel
    refine ⟨_, _, _, ht, rfl, hs, ⟨rfl, by simp, ?_, ?_⟩, fun hmatches => ?_⟩
    · rw [Element.classes_of_getElem? (v := "a b") (by simp)]
      decide
    · simp [AttributeTest.Asks]
    · have hasks := hmatches.tests ⟨"class", .plain, some "a b"⟩ List.mem_cons_self
      simp [AttributeTest.Asks, element] at hasks

end Template

end SelectorPath
