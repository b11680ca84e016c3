/-
Attribute tests and the elements they accept.

The condition of an attribute test is read as an expression and asked of elements.
It accepts every element that the test asks for. It also accepts some that the test
does not ask for, because a missing attribute is the empty text for a function, and
because the search for a token between two spaces finds several tokens in a row as
well as one.

* `AttributeTest.expression`: the condition of a test as an expression.
* `AttributeTest.Asks`: the elements that a test asks for.
* `AttributeTest.Excess`: the elements that are accepted beyond these.
* `AttributeTest.condition_accepts`: the condition is true of the elements of both
  kinds, and of no others.
* `AttributeTest.condition_accepts_unasked`: the condition of `[href^=""]` is true of
  an element without the attribute.
-/
import SelectorPath.Proofs.Selector.Grammar
import SelectorPath.Proofs.XPath.Literal
import SelectorPath.Selector.Step

namespace SelectorPath

open XPath Text

/-- The text of an attribute is a list of words, and this is one of them. -/
def tokenExpression (name token : String) : Expression :=
  .call .contains [.call .concat
      [.literal " ", .call .normalizeSpace [.attribute name], .literal " "],
    .literal (" " ++ token ++ " ")]

/-- The condition for a token is the text of one expression, as long as the name of the
attribute is a word. -/
lemma spells_tokenCondition {name : String} (h : IsWordText name) (token : String)
    (folding : Folding) :
    Spells ((tokenCondition name token).render folding) (tokenExpression name token).tokens := by
  have hnormalized : Spells _ (Expression.call .normalizeSpace [.attribute name]).tokens :=
    Spells.call_one .normalizeSpace (Spells.attribute h)
  have hspace := spells_literal " "
  exact Spells.call_two .contains (Spells.call_three .concat hspace hnormalized hspace)
    (spells_literal _)

/-- The search for a token: it is looked for between two spaces in the text of the
attribute, whose white space is brought down to single spaces. -/
lemma object?_tokenExpression (name token : String) (element : Element) :
    (tokenExpression name token).object? (.element element) = some (.truth
      (padded token.toList <:+:
        padded (normalizeSpace (element.attributes[name]?.getD "").toList))) := by
  have hattribute := Expression.object?_attribute element name
  have hnormalized : (Expression.call .normalizeSpace [.attribute name]).object?
      (.element element) = some (.text
        (String.ofList (normalizeSpace (element.attributes[name]?.getD "").toList))) := by
    rw [Expression.object?_call _ (.cons hattribute .nil), CoreFunction.value?, toText_under_named]
  have hspace := Expression.object?_literal " " (.element element)
  have hpadded := Expression.object?_call .concat
    (.cons hspace (.cons hnormalized (.cons hspace .nil)))
  have htoken := Expression.object?_literal (" " ++ token ++ " ") (.element element)
  rw [tokenExpression, Expression.object?_call .contains (.cons hpadded (.cons htoken .nil))]
  have hinner : (" " ++ token ++ " ").toList = padded token.toList := by simp [padded]
  have houter : ∀ text, (String.join [" ", String.ofList text, " "]).toList = padded text := by
    simp [padded]
  show some (Object.truth (decide ((" " ++ token ++ " ").toList <:+:
    (String.join [" ", String.ofList _, " "]).toList))) = _
  rw [hinner, houter]

namespace AttributeTest

/-! ### Conditions as expressions -/

/-- The condition of a test as an expression. -/
def expression (t : AttributeTest) : Expression :=
  let single := Operand.attributes (.named t.name)
  let family := Operand.filtered .any (.call .startsWith [.call .name [], .literal t.name])
  let value := t.value.getD ""
  match t.op with
  | .plain =>
    if t.value.isSome then .equal single (literalOperand value) else .operand single
  | .namePrefix =>
    if t.value.isSome then .equal family (literalOperand value) else .operand family
  | .absent => .call .not [.operand single]
  | .startsWith => .call .startsWith [.operand single, .literal value]
  | .endsWith => .call .endsWith [.operand single, .literal value]
  | .contains => .call .contains [.operand single, .literal value]
  | .notEquals => .call .not [.equal single (literalOperand value)]
  | .includes => tokenExpression t.name value

/-- The name of a test that was read is one word of an expression. -/
lemma WellFormed.isWordText {t : AttributeTest} (h : t.WellFormed) : IsWordText t.name := by
  refine ⟨fun hnil => h.name_ne (String.ext hnil), fun c hc => ?_⟩
  simpa only [isWordSymbol, Bool.or_eq_true, beq_iff_eq] using h.name_symbols c hc

/-- The condition of a test is written as its expression. -/
lemma spells_condition {t : AttributeTest} (h : IsWordText t.name) (folding : Folding) :
    Spells (t.condition.render folding) t.expression.tokens := by
  obtain ⟨name, op, value⟩ := t
  have hattribute : Spells ("@" ++ name) (Expression.attribute name).tokens := Spells.attribute h
  have hliteral : ∀ v, Spells (literal v) (Expression.literal v).tokens := spells_literal
  have hname : Spells "name()" (Expression.call .name []).tokens := Spells.call_none .name
  have hfamily := Spells.filtered (Spells.call_two .startsWith hname (hliteral name))
  cases op with
  | plain =>
      cases value with
      | none => exact hattribute
      | some v => exact Spells.equal hattribute (spells_literal v)
  | namePrefix =>
      cases value with
      | none => exact hfamily
      | some v =>
          have hequal := Spells.equal hfamily (spells_literal v)
          have hsign : ∀ text : String, text ++ "]" ++ "=" = text ++ "]=" := fun text => by
            rw [String.append_assoc]
            rfl
          rwa [hsign] at hequal
  | absent => exact Spells.call_one .not hattribute
  | startsWith => exact Spells.call_two .startsWith hattribute (hliteral _)
  | endsWith => exact Spells.call_two .endsWith hattribute (hliteral _)
  | contains => exact Spells.call_two .contains hattribute (hliteral _)
  | notEquals =>
      have hequal := Spells.equal hattribute (spells_literal (value.getD ""))
      exact Spells.call_one .not hequal
  | includes => exact spells_tokenCondition h _ folding

/-! ### What a test asks for -/

/-- The elements that a test asks for. -/
def Asks (t : AttributeTest) (element : Element) : Prop :=
  let held := element.attributes[t.name]?
  match t.op with
  | .plain => ∃ u, held = some u ∧ ∀ v ∈ t.value, u = v
  | .namePrefix =>
    ∃ name u : String, element.attributes[name]? = some u ∧ t.name.toList <+: name.toList ∧
      ∀ v ∈ t.value, u = v
  | .absent => held = none
  | .startsWith => ∃ u, held = some u ∧ ∃ v ∈ t.value, v.toList <+: u.toList
  | .endsWith => ∃ u, held = some u ∧ ∃ v ∈ t.value, v.toList <:+ u.toList
  | .contains => ∃ u, held = some u ∧ ∃ v ∈ t.value, v.toList <:+: u.toList
  | .notEquals => held = none ∨ ∃ u, held = some u ∧ ∀ v ∈ t.value, u ≠ v
  | .includes => ∃ u, held = some u ∧ ∃ v ∈ t.value, v.toList ∈ words u.toList

/-- The elements that are accepted although the test does not ask for them: those
without the attribute, where its text is searched for the empty text, those without a
token in it, where the empty token is searched for, and those with several tokens in a
row, where these are searched for as one. -/
def Excess (t : AttributeTest) (element : Element) : Prop :=
  let held := element.attributes[t.name]?
  match t.op with
  | .plain | .namePrefix | .absent | .notEquals => False
  | .startsWith | .endsWith | .contains => held = none ∧ t.value = some ""
  | .includes =>
    let tokens := words (held.getD "").toList
    (tokens = [] ∧ t.value = some "") ∨
      ∃ row, 2 ≤ row.length ∧ row <:+: tokens ∧
        t.value = some (String.ofList ([' '].intercalate row))

/-- A search in the text of an attribute, which is empty if the attribute is missing.
Nothing but the empty text is found in the empty text. -/
lemma exists_object?_search {R : List Char → List Char → Prop} [DecidableRel R]
    (hR : ∀ inner, R inner [] ↔ inner = []) {f : CoreFunction}
    (hf : ∀ node a b, f.value? node [a, b] = some (.truth (R b.toText.toList a.toText.toList)))
    (element : Element) (name v : String) :
    ∃ object, (Expression.call f [.attribute name, .literal v]).object? (.element element) =
        some object ∧
      (object.toTruth = true ↔
        (∃ u, element.attributes[name]? = some u ∧ R v.toList u.toList) ∨
          (element.attributes[name]? = none ∧ v = "")) := by
  have hcall := Expression.object?_call f (.cons (Expression.object?_attribute element name)
    (.cons (Expression.object?_literal v _) .nil))
  rw [hf] at hcall
  refine ⟨_, hcall, ?_⟩
  rw [Object.toTruth_decide, toText_under_named, Object.toText]
  cases element.attributes[name]? with
  | none => simpa using hR v.toList
  | some u => simp

/-- The search for a token finds the tokens, and what is in excess of them. -/
lemma search_token_iff (held : Option String) (v : String) :
    padded v.toList <:+: padded (normalizeSpace (held.getD "").toList) ↔
      (∃ u, held = some u ∧ v.toList ∈ words u.toList) ∨
        ((words (held.getD "").toList = [] ∧ v = "") ∨
          ∃ row, 2 ≤ row.length ∧ row <:+: words (held.getD "").toList ∧
            v = String.ofList ([' '].intercalate row)) := by
  have hword : v.toList ∈ words (held.getD "").toList ↔
      ∃ u, held = some u ∧ v.toList ∈ words u.toList := by
    cases held with
    | none => simp [words]
    | some u => simp
  have hempty : v.toList = [] ↔ v = "" := String.toList_eq_nil_iff
  have htext : ∀ text, v.toList = text ↔ v = String.ofList text := fun text => by
    rw [← String.toList_inj, String.toList_ofList]
  rw [padded_infix_normalizeSpace_iff, hword, hempty, and_comm (a := v = "")]
  simp only [htext]

/-- The attributes of an element whose names begin in a certain way. -/
def family (element : Element) (name : String) : List Attribute :=
  (Node.element element).attributes.filter fun a => name.toList <+: a.name.toList

lemma mem_family {element : Element} {name : String} {a : Attribute} :
    a ∈ family element name ↔
      element.attributes[a.name]? = some a.value ∧ name.toList <+: a.name.toList := by
  rw [family, List.mem_filter, mem_attributes, decide_eq_true_iff]

/-- The attributes of any name, restricted to names that begin in this way. -/
lemma object?_family (element : Element) (name : String) :
    (Operand.filtered .any (.call .startsWith [.call .name [], .literal name])).object?
      (.element element) = some (.nodes (family element name)) := by
  have hverdict : ∀ a : Attribute, (Expression.call .startsWith [.call .name [],
      .literal name]).object? (.attribute a) =
        some (.truth (name.toList <+: a.name.toList)) := by
    intro a
    have hname : (Expression.call .name []).object? (.attribute a) = some (.text a.name) :=
      Expression.object?_call .name .nil
    rw [Expression.object?_call .startsWith
      (.cons hname (.cons (Expression.object?_literal name _) .nil))]
    rfl
  rw [Operand.object?]
  simp only [hverdict, Option.map_some, Object.toTruth, filterM_some]
  simp [family, passes]

/-- The value of an equality with a literal. -/
lemma object?_equal {a : Operand} {node : Node} {object : Object}
    (h : a.object? node = some object) (v : String) :
    (Expression.equal a (literalOperand v)).object? node =
      some (.truth (object.equals (.text v))) := by
  rw [Expression.object?, h, (denotes_literalOperand v).object?_eq]
  rfl

/-- The condition of a test is true of the elements that the test asks for and of
those in excess. -/
lemma exists_object? {t : AttributeTest} (h : t.WellFormed) (element : Element) :
    ∃ object, t.expression.object? (.element element) = some object ∧
      (object.toTruth = true ↔ t.Asks element ∨ t.Excess element) := by
  obtain ⟨name, op, value⟩ := t
  have hattribute := Expression.object?_attribute element name
  cases op with
  | plain =>
      cases value with
      | none =>
          refine ⟨_, hattribute, ?_⟩
          rw [toTruth_under_named, Option.isSome_iff_exists]
          simp [Asks, Excess]
      | some v =>
          refine ⟨_, object?_equal hattribute v, ?_⟩
          rw [Object.toTruth, equals_under_named]
          simp [Asks, Excess]
  | namePrefix =>
      cases value with
      | none =>
          refine ⟨_, object?_family element name, ?_⟩
          simp only [Object.toTruth, Bool.not_eq_true', List.isEmpty_eq_false_iff_exists_mem,
            mem_family]
          constructor
          · rintro ⟨a, ha, hname⟩
            exact .inl ⟨a.name, a.value, ha, hname, by simp⟩
          · rintro (⟨other, u, hu, hname, -⟩ | hexcess)
            · exact ⟨⟨other, u⟩, hu, hname⟩
            · exact hexcess.elim
      | some v =>
          refine ⟨_, object?_equal (object?_family element name) v, ?_⟩
          simp only [Object.toTruth, Object.equals, List.any_eq_true, mem_family, beq_iff_eq]
          constructor
          · -- an attribute of the family has the value, not the family as a whole
            rintro ⟨a, ⟨ha, hname⟩, rfl⟩
            exact .inl ⟨a.name, a.value, ha, hname, by simp⟩
          · rintro (⟨other, u, hu, hname, hv⟩ | hexcess)
            · exact ⟨⟨other, u⟩, ⟨hu, hname⟩, hv v rfl⟩
            · exact hexcess.elim
  | absent =>
      obtain rfl : value = none := h.valueless rfl
      refine ⟨_, Expression.object?_call .not (.cons hattribute .nil), ?_⟩
      show (!(Object.nodes (element.under (.named name))).toTruth) = true ↔
        element.attributes[name]? = none ∨ False
      rw [toTruth_under_named]
      cases element.attributes[name]? <;> simp
  | startsWith =>
      obtain ⟨v, rfl⟩ := Option.isSome_iff_exists.mp (h.valued rfl)
      -- an attribute that is missing has the empty text, in which only the empty value is found
      obtain ⟨object, hobject, htruth⟩ := exists_object?_search (f := .startsWith)
        (fun _ => List.prefix_nil) (fun _ _ _ => rfl) element name v
      exact ⟨object, hobject, by simpa [Asks, Excess] using htruth⟩
  | endsWith =>
      obtain ⟨v, rfl⟩ := Option.isSome_iff_exists.mp (h.valued rfl)
      obtain ⟨object, hobject, htruth⟩ := exists_object?_search (f := .endsWith)
        (fun _ => List.suffix_nil) (fun _ _ _ => rfl) element name v
      exact ⟨object, hobject, by simpa [Asks, Excess] using htruth⟩
  | contains =>
      obtain ⟨v, rfl⟩ := Option.isSome_iff_exists.mp (h.valued rfl)
      obtain ⟨object, hobject, htruth⟩ := exists_object?_search (f := .contains)
        (fun _ => List.infix_nil) (fun _ _ _ => rfl) element name v
      exact ⟨object, hobject, by simpa [Asks, Excess] using htruth⟩
  | notEquals =>
      obtain ⟨v, rfl⟩ := Option.isSome_iff_exists.mp (h.valued rfl)
      refine ⟨_, Expression.object?_call .not (.cons (object?_equal hattribute v) .nil), ?_⟩
      -- no node equals the value where there is none, so a missing attribute passes
      show (!(Object.nodes (element.under (.named name))).equals (.text v)) = true ↔
        (element.attributes[name]? = none ∨
          ∃ u, element.attributes[name]? = some u ∧ ∀ w ∈ some v, u ≠ w) ∨ False
      rw [Bool.not_eq_true', Bool.eq_false_iff, Ne, equals_under_named]
      cases element.attributes[name]? <;> simp
  | includes =>
      obtain ⟨v, rfl⟩ := Option.isSome_iff_exists.mp (h.valued rfl)
      refine ⟨_, object?_tokenExpression name v element, ?_⟩
      rw [Object.toTruth_decide, search_token_iff]
      simp [Asks, Excess]

/-- What is in excess is not what the test asks for. -/
lemma not_asks_of_excess {t : AttributeTest} {element : Element} (h : t.Excess element) :
    ¬ t.Asks element := by
  obtain ⟨name, op, value⟩ := t
  cases op with
  | plain | namePrefix | absent | notEquals => exact h.elim
  | startsWith | endsWith | contains =>
      rintro ⟨u, hu, -⟩
      simp [h.1] at hu
  | includes =>
      rintro ⟨u, hu, v, hv, hmem⟩
      rcases h with ⟨htokens, hvalue⟩ | ⟨row, hlength, -, hvalue⟩
      · rw [hu] at htokens
        exact List.ne_nil_of_mem hmem htokens
      · obtain rfl : v = String.ofList ([' '].intercalate row) :=
          Option.some.inj (hv.symm.trans hvalue)
        rw [String.toList_ofList] at hmem
        exact intercalate_not_mem_words hlength hmem

/-- The condition of a test is true or false of every element. -/
lemma exists_judges {t : AttributeTest} (h : t.WellFormed) (folding : Folding)
    (element : Element) :
    ∃ verdict, Judges (t.condition.render folding) (.element element) verdict ∧
      (verdict = true ↔ t.Asks element ∨ t.Excess element) := by
  obtain ⟨object, hobject, htruth⟩ := exists_object? h element
  exact ⟨object.toTruth, (spells_condition h.isWordText folding).judges hobject, htruth⟩

/-- **The conditions of attribute tests accept what the tests ask for, and some
more.** The condition of every test that is read is one expression, which is true or
false of every element. It is true of the elements that the test asks for, and else
only where an empty text is searched for in a missing attribute, an empty token in an
attribute without tokens, or several tokens in a row as if they were one. -/
theorem condition_accepts {body : List Char} {t : AttributeTest} (h : ofBody body = .ok t)
    (folding : Folding) (element : Element) :
    (∃ verdict, Judges (t.condition.render folding) (.element element) verdict ∧
      (verdict = true ↔ t.Asks element ∨ t.Excess element)) ∧
      ¬ (t.Asks element ∧ t.Excess element) := by
  refine ⟨exists_judges (wellFormed_of_ofBody h) folding element, ?_⟩
  rintro ⟨hasks, hexcess⟩
  exact not_asks_of_excess hexcess hasks

/-- A token behind tabs and line breaks. -/
theorem condition_accepts_token :
    ofBody "rel~='next'".toList = .ok ⟨"rel", .includes, some "next"⟩ ∧
      Judges "contains(concat(\" \", normalize-space(@rel), \" \"), \" next \")"
        (.element ⟨"a", {("rel", "nofollow\t\n next")}⟩) true := by
  have hbody : ofBody "rel~='next'".toList = .ok ⟨"rel", .includes, some "next"⟩ := by
    decide +kernel
  obtain ⟨⟨verdict, hjudges, htruth⟩, -⟩ :=
    condition_accepts hbody .ascii ⟨"a", {("rel", "nofollow\t\n next")}⟩
  have hasks : Asks ⟨"rel", .includes, some "next"⟩ ⟨"a", {("rel", "nofollow\t\n next")}⟩ :=
    ⟨"nofollow\t\n next", by simp, "next", rfl, by decide⟩
  rw [htruth.mpr (.inl hasks)] at hjudges
  exact ⟨hbody, hjudges⟩

/-- An element without the attribute is accepted where an empty value is searched
for, and two tokens in a row are accepted as one. -/
theorem condition_accepts_unasked :
    (ofBody "href^=''".toList = .ok ⟨"href", .startsWith, some ""⟩ ∧
      Judges "starts-with(@href, \"\")" (.element ⟨"a", ∅⟩) true ∧
      ¬ Asks ⟨"href", .startsWith, some ""⟩ ⟨"a", ∅⟩) ∧
    (ofBody "rel~='up next'".toList = .ok ⟨"rel", .includes, some "up next"⟩ ∧
      Judges "contains(concat(\" \", normalize-space(@rel), \" \"), \" up next \")"
        (.element ⟨"a", {("rel", "up next")}⟩) true ∧
      ¬ Asks ⟨"rel", .includes, some "up next"⟩ ⟨"a", {("rel", "up next")}⟩) := by
  have hempty : ofBody "href^=''".toList = .ok ⟨"href", .startsWith, some ""⟩ := by decide +kernel
  have hrow : ofBody "rel~='up next'".toList = .ok ⟨"rel", .includes, some "up next"⟩ := by
    decide +kernel
  constructor
  · obtain ⟨verdict, hjudges, htruth⟩ :=
      exists_judges (wellFormed_of_ofBody hempty) .ascii ⟨"a", ∅⟩
    have hexcess : Excess ⟨"href", .startsWith, some ""⟩ ⟨"a", ∅⟩ := ⟨by simp, rfl⟩
    rw [htruth.mpr (.inr hexcess)] at hjudges
    exact ⟨hempty, hjudges, not_asks_of_excess hexcess⟩
  · obtain ⟨verdict, hjudges, htruth⟩ :=
      exists_judges (wellFormed_of_ofBody hrow) .ascii ⟨"a", {("rel", "up next")}⟩
    have hexcess : Excess ⟨"rel", .includes, some "up next"⟩ ⟨"a", {("rel", "up next")}⟩ :=
      .inr ⟨["up".toList, "next".toList], by decide, by simp; decide, by decide⟩
    rw [htruth.mpr (.inr hexcess)] at hjudges
    exact ⟨hrow, hjudges, not_asks_of_excess hexcess⟩

end AttributeTest

end SelectorPath
