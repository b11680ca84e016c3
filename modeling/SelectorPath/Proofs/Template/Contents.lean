/-
What the template of a selector holds.

A template is made by setting attributes one after the other: one for each attribute
test, then the id, then the classes. Setting an attribute again changes its value and
leaves it in its place. So the names stand in the order in which they first occur, and
each of them has the value that was set last.

* `Template.InOrder`: names that stand in the order of their first occurrence in a row.
* `Template.InOrder.set`, `Template.InOrder.setAll`: setting attributes keeps them so.
* `Template.find?_setAll`: the value that was set last counts.
* `Template.Plain`: the selectors that describe an element.
* `Template.Contents`: the tag and the attributes that a segment describes.
* `Template.contents_are_exact`: exactly the plain selectors have a template, which
  holds what the segment describes.
-/
import SelectorPath.Proofs.Selector.Grammar
import SelectorPath.Template

namespace SelectorPath

/-- The last attribute test on a name. -/
def Segment.lastTest? (s : Segment) (name : String) : Option AttributeTest :=
  (s.attributes.filter (·.name = name)).getLast?

/-- The names of the attributes that a segment speaks of: those of the bracketed tests in
order, then the id and the classes. -/
def Segment.attributeNames (s : Segment) : List String :=
  s.attributes.map AttributeTest.name ++ (if s.id.isSome then ["id"] else []) ++
    (if s.classes = [] then [] else ["class"])

namespace Template

/-! ### Attributes set one after the other -/

/-- The names are those of the row, in the order in which they first occur there. -/
structure InOrder (names row : List String) : Prop where
  mem_iff : ∀ x, x ∈ names ↔ x ∈ row
  ordered : names.Pairwise fun a b => row.idxOf a < row.idxOf b

/-- No name stands there twice. -/
lemma InOrder.nodup {names row : List String} (h : InOrder names row) : names.Nodup := by
  refine h.ordered.imp fun {a b} hlt heq => ?_
  rw [heq] at hlt
  exact Nat.lt_irrefl _ hlt

/-- A name that is there keeps its place, and a new one comes last. -/
lemma map_fst_set (name value : String) (attributes : List (String × String)) :
    (set name value attributes).map Prod.fst =
      if name ∈ attributes.map Prod.fst then attributes.map Prod.fst
      else attributes.map Prod.fst ++ [name] := by
  induction attributes with
  | nil => rfl
  | cons pair rest ih =>
      obtain ⟨n, v⟩ := pair
      rw [set]
      by_cases hn : n = name
      · simp [hn]
      · rw [if_neg hn, List.map_cons, ih, List.map_cons]
        by_cases hmem : name ∈ rest.map Prod.fst
        · rw [if_pos hmem, if_pos (List.mem_cons_of_mem n hmem)]
        · have hnot : name ∉ n :: rest.map Prod.fst := by simp [Ne.symm hn, hmem]
          rw [if_neg hmem, if_neg hnot, List.cons_append]

/-- A name that is set goes to the end, unless it is there. -/
lemma InOrder.set {attributes : List (String × String)} {row : List String}
    (h : InOrder (attributes.map Prod.fst) row) (name value : String) :
    InOrder ((set name value attributes).map Prod.fst) (row ++ [name]) := by
  have hsame : ∀ x ∈ attributes.map Prod.fst, (row ++ [name]).idxOf x = row.idxOf x :=
    fun x hx => List.idxOf_append_of_mem ((h.mem_iff x).mp hx)
  have hordered : (attributes.map Prod.fst).Pairwise fun a b =>
      (row ++ [name]).idxOf a < (row ++ [name]).idxOf b := by
    refine h.ordered.imp_of_mem fun ha hb hlt => ?_
    rwa [hsame _ ha, hsame _ hb]
  rw [map_fst_set]
  split_ifs with hname
  · refine ⟨fun x => ?_, hordered⟩
    rw [h.mem_iff, List.mem_append, List.mem_singleton]
    exact ⟨.inl, fun hx => hx.elim id fun heq => heq ▸ (h.mem_iff name).mp hname⟩
  · refine ⟨fun x => by rw [List.mem_append, List.mem_append, h.mem_iff], ?_⟩
    refine List.pairwise_append.mpr ⟨hordered, List.pairwise_singleton _ _, fun a ha b hb => ?_⟩
    obtain rfl := List.mem_singleton.mp hb
    rw [hsame a ha, List.idxOf_append_of_notMem fun hb => hname ((h.mem_iff b).mpr hb)]
    exact Nat.lt_of_lt_of_le (List.idxOf_lt_length_of_mem ((h.mem_iff a).mp ha))
      (Nat.le_add_right _ _)

/-- Names that are set one after the other stand in the order in which they were first
set. -/
lemma InOrder.setAll {attributes : List (String × String)} {row : List String}
    (h : InOrder (attributes.map Prod.fst) row) (pairs : List (String × String)) :
    InOrder ((setAll pairs attributes).map Prod.fst) (row ++ pairs.map Prod.fst) := by
  induction pairs generalizing attributes row with
  | nil => simpa [Template.setAll] using h
  | cons pair pairs ih => simpa [Template.setAll] using ih (h.set pair.1 pair.2)

/-- Of the values that are set, the last one counts. -/
lemma find?_setAll (pairs : List (String × String)) (x : String) :
    ((setAll pairs []).find? fun pair => pair.1 == x).map Prod.snd =
      (pairs.filter fun pair => pair.1 == x).getLast?.map Prod.snd := by
  induction pairs using List.reverseRecOn with
  | nil => rfl
  | append_singleton pairs pair ih =>
      obtain ⟨name, value⟩ := pair
      have hlast : setAll (pairs ++ [(name, value)]) [] = set name value (setAll pairs []) := by
        rw [setAll, List.foldl_append]
        rfl
      rw [hlast, find?_set, ih, List.filter_append]
      by_cases hx : x = name
      · simp [hx]
      · simp [hx, Ne.symm hx]

/-! ### Segments that describe an element -/

/-- The selector is a single segment that describes an element: it takes up the whole
text, has no combinator behind it and no pseudo-class, does not ask for any element, and
compares no attributes. -/
structure Plain (selector : String) (s : Segment) : Prop where
  whole : Segment.parse (String.ofList (Text.trim selector.toList)) =
    .ok (s, (String.ofList (Text.trim selector.toList)).utf8ByteSize)
  combinator : s.combinator = .descendant
  pseudo : s.pseudo = none
  tag : s.tag ≠ some .any
  tests : ∀ test ∈ s.attributes, test.op = .plain

/-- The template holds what the segment describes. -/
structure Contents (s : Segment) (t : Template) : Prop where
  tag : t.tag = (s.tag.map NodeTest.text).getD "div"
  names : InOrder (t.attributes.map Prod.fst) s.attributeNames
  distinct : (t.attributes.map Prod.fst).Nodup
  value : ∀ x, t.attribute? x =
    if x = "class" ∧ s.classes ≠ [] then some (" ".intercalate s.classes)
    else if x = "id" ∧ s.id.isSome then s.id
    else (s.lastTest? x).map fun test => test.value.getD ""

/-- What a segment sets, in order. -/
def pairsOf (s : Segment) : List (String × String) :=
  (s.attributes.map fun test => (test.name, test.value.getD "")) ++ namedPairs s

/-- The template that a plain segment describes. -/
def ofPlain (s : Segment) : Template :=
  ⟨(s.tag.map NodeTest.text).getD "div", setAll (pairsOf s) []⟩

/-- Without a tag the element is a `div`, and the star names no element. -/
lemma tagOf_eq_ok {tag : Option NodeTest} {name : String} :
    tagOf tag = .ok name ↔ tag ≠ some .any ∧ (tag.map NodeTest.text).getD "div" = name := by
  match tag with
  | none => simp [tagOf, defaultTag]
  | some .any => simp [tagOf]
  | some (.named n) => simp [tagOf, NodeTest.text]

/-- Tests describe attributes exactly if all of them ask for one value or for any. -/
lemma mapM_pairOf_eq_ok {tests : List AttributeTest} {pairs : List (String × String)} :
    tests.mapM pairOf = .ok pairs ↔ (∀ test ∈ tests, test.op = .plain) ∧
      (tests.map fun test => (test.name, test.value.getD "")) = pairs := by
  have hpair : ∀ (test : AttributeTest) (pair : String × String),
      pairOf test = .ok pair ↔ test.op = .plain ∧ (test.name, test.value.getD "") = pair := by
    intro test pair
    rw [pairOf]
    split_ifs with hop <;> simp [hop]
  rw [Error.mapM_eq_ok]
  simp only [hpair]
  rw [List.forall₂_and_left, ← List.forall₂_map_left_iff (R := (· = ·)), List.forall₂_eq_eq_eq]

/-- The template of a segment, when it has one. -/
lemma ofSegment_eq_ok {s : Segment} {rest : List Char} {t : Template} :
    ofSegment s rest = .ok t ↔
      rest = [] ∧ s.combinator = .descendant ∧ s.pseudo = none ∧ s.tag ≠ some .any ∧
        (∀ test ∈ s.attributes, test.op = .plain) ∧ ofPlain s = t := by
  have hcombinator : s.combinator = .descendant ↔ s.combinator ≠ .child := by
    cases s.combinator <;> simp
  rw [ofSegment]
  split_ifs with hmany hpseudo
  · refine ⟨nofun, fun ⟨hrest, hdescendant, _⟩ => ?_⟩
    simp [hrest, hdescendant] at hmany
  · refine ⟨nofun, fun ⟨_, _, hnone, _⟩ => ?_⟩
    simp [hnone] at hpseudo
  · obtain ⟨hrest, hchild⟩ : rest = [] ∧ s.combinator ≠ .child := by simpa using hmany
    have hnone : s.pseudo = none := by simpa using hpseudo
    simp only [Error.bind_eq_ok, tagOf_eq_ok, mapM_pairOf_eq_ok, Error.pure_eq_ok]
    constructor
    · rintro ⟨_, ⟨htag, rfl⟩, _, ⟨hplain, rfl⟩, heq⟩
      exact ⟨hrest, hcombinator.mpr hchild, hnone, htag, hplain, heq⟩
    · rintro ⟨-, -, -, htag, hplain, heq⟩
      exact ⟨_, ⟨htag, rfl⟩, _, ⟨hplain, rfl⟩, heq⟩

end Template

/-- A segment that takes up all bytes of a text leaves nothing of it. -/
lemma Segment.parse_whole_iff {text : String} {s : Segment} :
    parse text = .ok (s, text.utf8ByteSize) ↔ read text.toList = .ok (s, []) := by
  rw [parse_eq_ok_iff, read_eq_ok_iff]
  constructor
  · rintro ⟨taken, after, htext, hsize, hspelled⟩
    have hall : text = String.ofList taken ++ String.ofList after := by
      rw [← String.ofList_append, ← htext, String.ofList_toList]
    have hnone : (String.ofList after).utf8ByteSize = 0 := by
      rw [hall, String.utf8ByteSize_append] at hsize
      omega
    obtain rfl : after = [] := by
      rw [String.utf8ByteSize_eq_zero_iff] at hnone
      simpa using hnone
    exact ⟨taken, htext, hspelled⟩
  · rintro ⟨taken, htext, hspelled⟩
    refine ⟨taken, [], htext, ?_, hspelled⟩
    rw [← List.append_nil taken, ← htext, String.ofList_toList]

namespace Template

/-- A selector has a template exactly if it is plain. -/
lemma ofSelector_eq_ok {selector : String} {t : Template} :
    ofSelector selector = .ok t ↔ ∃ s, Plain selector s ∧ ofPlain s = t := by
  rw [ofSelector, Error.bind_eq_ok]
  simp only [Error.blame_eq_ok]
  constructor
  · rintro ⟨⟨s, rest⟩, hread, h⟩
    obtain ⟨rfl, hcombinator, hpseudo, htag, htests, heq⟩ := ofSegment_eq_ok.mp h
    have hwhole := Segment.parse_whole_iff.mpr (by rwa [String.toList_ofList])
    exact ⟨s, ⟨hwhole, hcombinator, hpseudo, htag, htests⟩, heq⟩
  · rintro ⟨s, hplain, heq⟩
    have hread := Segment.parse_whole_iff.mp hplain.whole
    rw [String.toList_ofList] at hread
    exact ⟨(s, []), hread, ofSegment_eq_ok.mpr
      ⟨rfl, hplain.combinator, hplain.pseudo, hplain.tag, hplain.tests, heq⟩⟩

lemma map_fst_pairsOf (s : Segment) : (pairsOf s).map Prod.fst = s.attributeNames := by
  have hid : (s.id.toList.map fun id => ("id", id)).map Prod.fst =
      if s.id.isSome then ["id"] else [] := by
    cases s.id <;> rfl
  have hclasses : (if s.classes.isEmpty then []
      else [("class", " ".intercalate s.classes)]).map Prod.fst =
        if s.classes = [] then [] else ["class"] := by
    cases s.classes <;> rfl
  rw [pairsOf, namedPairs, List.map_append, List.map_append, hid, hclasses, List.map_map,
    Segment.attributeNames, List.append_assoc]
  rfl

/-- The id and the classes have the last word, and among the tests the last one. -/
lemma getLast?_pairsOf (s : Segment) (x : String) :
    ((pairsOf s).filter fun pair => pair.1 == x).getLast?.map Prod.snd =
      if x = "class" ∧ s.classes ≠ [] then some (" ".intercalate s.classes)
      else if x = "id" ∧ s.id.isSome then s.id
      else (s.lastTest? x).map fun test => test.value.getD "" := by
  have htests : ((s.attributes.map fun test => (test.name, test.value.getD "")).filter
      fun pair => pair.1 == x).getLast?.map Prod.snd =
        (s.lastTest? x).map fun test => test.value.getD "" := by
    rw [List.filter_map, List.getLast?_map, Option.map_map, Segment.lastTest?]
    rfl
  have hid : ((s.id.toList.map fun id => ("id", id)).filter fun pair => pair.1 == x).getLast?.map
      Prod.snd = if x = "id" then s.id else none := by
    by_cases hx : x = "id"
    · cases s.id <;> simp [hx]
    · cases s.id <;> simp [hx, Ne.symm hx]
  have hclasses : ((if s.classes.isEmpty then []
      else [("class", " ".intercalate s.classes)]).filter fun pair => pair.1 == x).getLast?.map
        Prod.snd = if x = "class" ∧ s.classes ≠ [] then some (" ".intercalate s.classes)
          else none := by
    by_cases hx : x = "class"
    · cases s.classes <;> simp [hx]
    · cases s.classes <;> simp [hx, Ne.symm hx]
  rw [pairsOf, namedPairs, List.filter_append, List.filter_append, List.getLast?_append,
    List.getLast?_append, Option.map_or, Option.map_or, htests, hid, hclasses]
  by_cases hclass : x = "class" ∧ s.classes ≠ []
  · rw [if_pos hclass, if_pos hclass, Option.some_or, Option.some_or]
  · rw [if_neg hclass, if_neg hclass, Option.none_or]
    by_cases hx : x = "id"
    · cases s.id <;> simp [hx]
    · simp [hx]

/-- The template of a segment has the contents that the segment describes, one part after
the other. -/
lemma contents_ofPlain (s : Segment) : Contents s (ofPlain s) := by
  have hempty : InOrder (([] : List (String × String)).map Prod.fst) [] :=
    ⟨fun x => Iff.rfl, List.Pairwise.nil⟩
  have hnames := hempty.setAll (pairsOf s)
  rw [List.nil_append, map_fst_pairsOf] at hnames
  refine ⟨rfl, hnames, hnames.nodup, fun x => ?_⟩
  rw [attribute?, ofPlain, find?_setAll, getLast?_pairsOf]

/-- **Templates hold what their selectors describe.** A selector has a template exactly
if it is one segment that takes up the whole text, with no combinator behind it, no
pseudo-class, a tag other than `*` and plain attribute tests. The template then has the
tag of the segment, or `div`. Its attributes have distinct names in the order of their
first occurrence. The classes give the value of `class`, the id that of `id`, and else
the last test on an attribute gives its value. -/
theorem contents_are_exact (selector : String) :
    ((∃ t, ofSelector selector = .ok t) ↔ ∃ s, Plain selector s) ∧
      ∀ s, Plain selector s → ∃ t, ofSelector selector = .ok t ∧ Contents s t := by
  constructor
  · constructor
    · rintro ⟨t, ht⟩
      obtain ⟨s, hplain, -⟩ := ofSelector_eq_ok.mp ht
      exact ⟨s, hplain⟩
    · rintro ⟨s, hplain⟩
      exact ⟨_, ofSelector_eq_ok.mpr ⟨s, hplain, rfl⟩⟩
  · intro s hplain
    exact ⟨_, ofSelector_eq_ok.mpr ⟨s, hplain, rfl⟩, contents_ofPlain s⟩

/-- Names that are set twice, among them those of the id and the classes. -/
theorem contents_are_exact_repeated :
    let selector := " #y.b.c[class=a][rel=up][id][rel][hidden] "
    let s : Segment :=
      { id := some "y", classes := ["b", "c"],
        attributes := [⟨"class", .plain, some "a"⟩, ⟨"rel", .plain, some "up"⟩,
          ⟨"id", .plain, none⟩, ⟨"rel", .plain, none⟩, ⟨"hidden", .plain, none⟩] }
    Plain selector s ∧ ∃ t, ofSelector selector = .ok t ∧ t.tag = "div" ∧
      InOrder (t.attributes.map Prod.fst) ["class", "rel", "id", "rel", "hidden", "id", "class"] ∧
        t.attribute? "class" = some "b c" ∧ t.attribute? "id" = some "y" ∧
          t.attribute? "rel" = some "" ∧ t.attribute? "title" = none := by
  intro selector s
  have hplain : Plain selector s :=
    ⟨by decide +kernel, rfl, rfl, by decide, by decide⟩
  obtain ⟨t, ht, hcontents⟩ := (contents_are_exact selector).2 s hplain
  refine ⟨hplain, t, ht, hcontents.tag, hcontents.names, ?_, ?_, ?_, ?_⟩
  · rw [hcontents.value]
    decide
  · rw [hcontents.value]
    decide
  · rw [hcontents.value]
    decide
  · rw [hcontents.value]
    decide

end Template

end SelectorPath
