/-
What expressions say of elements and attributes.

An element is a name and a finite map from the names of its attributes to their
values. Attributes are nodes of their own, and what is asked of them is asked with
the attribute in the place of the element. The value of an expression is a set of
attributes, a text or a truth value. Functions and equalities convert between the
three: a set of attributes stands for the value of its first member, or for the empty
text if there is none, and it is true if there is one; an equality with a text holds
if some attribute of the set has this text for its value.

* `XPath.Element`, `XPath.Node`, `XPath.Object`: what there is to speak of.
* `CoreFunction.value?`: the functions, which are nothing for a wrong number of
  arguments.
* `Expression.object?`: the value of an expression at a node.
* `XPath.Judges`: the text is an expression, and true or false of the node.
* `XPath.toText_under_named`, `XPath.toTruth_under_named`,
  `XPath.equals_under_named`: an attribute, which may be missing, as a text, as a truth
  value and in an equality.
-/
import Mathlib.Data.List.Forall2
import Mathlib.Data.List.Infix
import SelectorPath.Proofs.XPath.Expression
import Std.Data.ExtTreeMap

namespace SelectorPath.XPath

open Text

/-- An element, by its name and the values of its attributes. -/
structure Element where
  /-- The name of the element. -/
  name : String
  /-- The attributes by name. -/
  attributes : Std.ExtTreeMap String String

/-- An attribute of an element. -/
structure Attribute where
  /-- The name of the attribute. -/
  name : String
  /-- Its value. -/
  value : String
  deriving DecidableEq

/-- What an expression is asked of. -/
inductive Node where
  | element (e : Element)
  | attribute (a : Attribute)

/-- The name of a node. -/
def Node.name : Node → String
  | .element e => e.name
  | .attribute a => a.name

/-- The attributes of a node. An attribute has none. -/
def Node.attributes : Node → List Attribute
  | .element e => e.attributes.toList.map fun (name, value) => ⟨name, value⟩
  | .attribute _ => []

/-- A name passes the test. -/
def passes : NodeTest → String → Bool
  | .any, _ => true
  | .named name, other => other == name

/-- The value of an expression. -/
inductive Object where
  /-- Some attributes of a node, in the order of their names. -/
  | nodes (members : List Attribute)
  /-- A text. -/
  | text (value : String)
  /-- A truth value. -/
  | truth (value : Bool)

namespace Object

/-- The value in the place of a text. -/
def toText : Object → String
  | .nodes members => (members.head?.map Attribute.value).getD ""
  | .text value => value
  | .truth value => if value then "true" else "false"

/-- The value in the place of a truth value. -/
def toTruth : Object → Bool
  | .nodes members => !members.isEmpty
  | .text value => value != ""
  | .truth value => value

lemma toTruth_decide {P : Prop} [Decidable P] : (truth P).toTruth = true ↔ P :=
  decide_eq_true_iff

/-- The equality of two values. A truth value makes it one of truth values, and a set
of attributes holds what one of its members holds. -/
def equals : Object → Object → Bool
  | .truth a, b => a == b.toTruth
  | a, .truth b => a.toTruth == b
  | .nodes l, .nodes m => l.any fun a => m.any fun b => a.value == b.value
  | .nodes l, .text t => l.any fun a => a.value == t
  | .text t, .nodes l => l.any fun a => a.value == t
  | .text s, .text t => s == t

end Object

/-- The value of a call, if the function takes this number of arguments. -/
def CoreFunction.value? (node : Node) : CoreFunction → List Object → Option Object
  | .name, [] => some (.text node.name)
  | .not, [a] => some (.truth !a.toTruth)
  | .startsWith, [a, b] => some (.truth (b.toText.toList <+: a.toText.toList))
  | .endsWith, [a, b] => some (.truth (b.toText.toList <:+ a.toText.toList))
  | .contains, [a, b] => some (.truth (b.toText.toList <:+: a.toText.toList))
  | .concat, a :: b :: more => some (.text (String.join ((a :: b :: more).map Object.toText)))
  | .normalizeSpace, [a] => some (.text (String.ofList (Text.normalizeSpace a.toText.toList)))
  | _, _ => none

mutual

/-- The value of an operand at a node. -/
def Operand.object? : Operand → Node → Option Object
  | .string value, _ => some (.text value)
  | .attributes test, node => some (.nodes (node.attributes.filter (passes test ·.name)))
  | .filtered test filter, node => do
    let members ← (node.attributes.filter (passes test ·.name)).filterM fun a =>
      (filter.object? (.attribute a)).map Object.toTruth
    return .nodes members
  | .call f arguments, node => do f.value? node (← objects? arguments node)

/-- The value of an expression at a node. -/
def Expression.object? : Expression → Node → Option Object
  | .operand a, node => a.object? node
  | .equal a b, node => do return .truth ((← a.object? node).equals (← b.object? node))

/-- The values of several expressions at a node. -/
def objects? : List Expression → Node → Option (List Object)
  | [], _ => some []
  | e :: more, node => do return (← e.object? node) :: (← objects? more node)

end

/-- The value of a call by the values of its arguments. -/
lemma Expression.object?_call (f : CoreFunction) {node : Node} {l : List Expression}
    {objects : List Object}
    (h : List.Forall₂ (fun e object => e.object? node = some object) l objects) :
    (Expression.call f l).object? node = f.value? node objects := by
  have hobjects : objects? l node = some objects := by
    induction h with
    | nil => rw [objects?]
    | cons hfirst _ ih =>
        rw [objects?, hfirst, ih]
        rfl
  rw [Expression.object?, Operand.object?, hobjects]
  rfl

/-- The text is a way to write one expression, which has this truth value at the
node. -/
def Judges (text : String) (node : Node) (verdict : Bool) : Prop :=
  ∃ e, ReadsOnly text e ∧ (e.object? node).map Object.toTruth = some verdict

/-- The truth value of a text by the value of the expression it spells. -/
lemma Spells.judges {text : String} {e : Expression} (h : Spells text e.tokens) {node : Node}
    {object : Object} (hobject : e.object? node = some object) :
    Judges text node object.toTruth :=
  ⟨e, h.readsOnly, by rw [hobject, Option.map_some]⟩

/-- A text has one truth value at a node. -/
lemma Judges.unique {text : String} {node : Node} {a b : Bool} (ha : Judges text node a)
    (hb : Judges text node b) : a = b := by
  obtain ⟨e, he, hea⟩ := ha
  obtain ⟨f, hf, hfb⟩ := hb
  obtain rfl := (hf e).mp ((he e).mpr rfl)
  exact Option.some.inj (hea.symm.trans hfb)

/-! ### The attributes of an element -/

/-- An element has each attribute once. -/
lemma mem_attributes {element : Element} {a : Attribute} :
    a ∈ (Node.element element).attributes ↔ element.attributes[a.name]? = some a.value := by
  rw [Node.attributes, List.mem_map, ← Std.ExtTreeMap.mem_toList_iff_getElem?_eq_some]
  constructor
  · rintro ⟨⟨name, value⟩, hmem, rfl⟩
    exact hmem
  · exact fun hmem => ⟨(a.name, a.value), hmem, rfl⟩

/-- The attributes of an element under a test. -/
def Element.under (element : Element) (test : NodeTest) : List Attribute :=
  (Node.element element).attributes.filter (passes test ·.name)

lemma Expression.object?_attribute (element : Element) (name : String) :
    (Expression.attribute name).object? (.element element) =
      some (.nodes (element.under (.named name))) :=
  rfl

section

variable {element : Element} {name : String}

/-- A name stands for one attribute at most. -/
lemma mem_under_named {a : Attribute} :
    a ∈ element.under (.named name) ↔ a.name = name ∧ element.attributes[name]? = some a.value := by
  rw [Element.under, List.mem_filter, mem_attributes, and_comm]
  simp only [passes, beq_iff_eq]
  exact and_congr_right fun hname => by rw [hname]

/-- A missing attribute is the empty text. -/
lemma toText_under_named :
    (Object.nodes (element.under (.named name))).toText = element.attributes[name]?.getD "" := by
  cases hmembers : element.under (.named name) with
  | nil =>
      cases hvalue : element.attributes[name]? with
      | none => rfl
      | some value =>
          have hmem : ⟨name, value⟩ ∈ element.under (.named name) :=
            mem_under_named.mpr ⟨rfl, hvalue⟩
          simp [hmembers] at hmem
  | cons a members =>
      have hmem : a ∈ element.under (.named name) := hmembers ▸ List.mem_cons_self
      rw [(mem_under_named.mp hmem).2]
      rfl

/-- An attribute is true if it is there. -/
lemma toTruth_under_named :
    (Object.nodes (element.under (.named name))).toTruth = element.attributes[name]?.isSome := by
  rw [Bool.eq_iff_iff, Option.isSome_iff_exists]
  simp only [Object.toTruth, Bool.not_eq_true', List.isEmpty_eq_false_iff_exists_mem]
  constructor
  · rintro ⟨a, ha⟩
    exact ⟨a.value, (mem_under_named.mp ha).2⟩
  · rintro ⟨value, hvalue⟩
    exact ⟨⟨name, value⟩, mem_under_named.mpr ⟨rfl, hvalue⟩⟩

/-- A missing attribute equals no text. -/
lemma equals_under_named {value : String} :
    (Object.nodes (element.under (.named name))).equals (.text value) = true ↔
      element.attributes[name]? = some value := by
  simp only [Object.equals, List.any_eq_true, beq_iff_eq]
  constructor
  · rintro ⟨a, ha, rfl⟩
    exact (mem_under_named.mp ha).2
  · intro hvalue
    exact ⟨⟨name, value⟩, mem_under_named.mpr ⟨rfl, hvalue⟩, rfl⟩

end

/-! ### Conditions on the attributes -/

lemma filterAuxM_some (p : Attribute → Bool) (l acc : List Attribute) :
    (l.filterAuxM (fun a => some (p a)) acc) = some ((l.filter p).reverse ++ acc) := by
  induction l generalizing acc with
  | nil => rfl
  | cons a l ih =>
      show l.filterAuxM _ (bif p a then a :: acc else acc) = _
      rw [ih, List.filter_cons]
      cases p a <;> simp

/-- A test that always comes to a result selects as a plain one. -/
lemma filterM_some (p : Attribute → Bool) (l : List Attribute) :
    (l.filterM fun a => some (p a)) = some (l.filter p) := by
  rw [List.filterM, filterAuxM_some]
  simp

end SelectorPath.XPath
