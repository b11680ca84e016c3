/-
String literals denote their texts.

* `Operand.Denotes`: strings, and concatenations of at least two of them, with the
  text they stand for.
* `XPath.spells_literal`: the literal for a text, in all its three forms, is one operand.
* `XPath.literal_denotes`: the literal for a text is such an expression in full, and
  stands for just this text.
-/
import SelectorPath.Proofs.XPath.Evaluation
import SelectorPath.Proofs.XPath.Solid

namespace SelectorPath.XPath

open Text

/-! ### The pieces of a text -/

/-- The pieces of a text are what is left between the marks, so they make up the text
again. -/
lemma pieces_eq_splitOn (c : Char) (text : List Char) : pieces c text = text.splitOn c := by
  induction text with
  | nil => rfl
  | cons a text ih =>
      obtain ⟨piece, more, hpieces⟩ := List.exists_cons_of_ne_nil (pieces_ne_nil c text)
      rw [pieces, hpieces]
      rw [hpieces] at ih
      rw [List.splitOn, List.splitOnP_cons_eq_if_modifyHead, ← List.splitOn, ← ih]
      simp

/-- A text with the mark in it has two pieces at least. -/
lemma two_le_length_pieces {c : Char} {text : List Char} (h : c ∈ text) :
    2 ≤ (pieces c text).length := by
  by_contra hlt
  obtain ⟨piece, more, hpieces⟩ := List.exists_cons_of_ne_nil (pieces_ne_nil c text)
  obtain rfl : more = [] := by
    rw [hpieces, List.length_cons] at hlt
    exact List.eq_nil_of_length_eq_zero (by omega)
  have hjoin : [c].intercalate (text.splitOn c) = text := List.intercalate_splitOn c
  rw [← pieces_eq_splitOn, hpieces, List.intercalate_singleton] at hjoin
  exact not_mem_of_mem_pieces (hpieces ▸ List.mem_cons_self) (hjoin ▸ h)

/-! ### Operands that stand for a text -/

/-- The operand is a string or the concatenation of at least two strings, and this is
the text it stands for. -/
inductive Operand.Denotes : Operand → String → Prop
  | string (value : String) : Denotes (.string value) value
  | concat {values : List String} : 2 ≤ values.length →
      Denotes (.call .concat (values.map fun value => .operand (.string value)))
        (String.join values)

lemma objects?_strings (values : List String) (node : Node) :
    objects? (values.map fun value => .operand (.string value)) node =
      some (values.map .text) := by
  induction values with
  | nil => rw [List.map_nil, objects?, List.map_nil]
  | cons value values ih =>
      rw [List.map_cons, objects?, ih]
      rfl

/-- What an operand stands for is its value everywhere. -/
lemma Operand.Denotes.object?_eq {a : Operand} {value : String} (h : a.Denotes value)
    (node : Node) : a.object? node = some (.text value) := by
  cases h with
  | string => rw [Operand.object?]
  | @concat values hlength =>
      rw [Operand.object?, objects?_strings]
      obtain _ | ⟨first, _ | ⟨second, more⟩⟩ := values
      · simp at hlength
      · simp at hlength
      · simp [CoreFunction.value?, Object.toText, Function.comp_def]

/-! ### The three forms of a literal -/

/-- A text without one of the two quotation marks is a string between marks of that
kind. -/
lemma spells_literal_of_not_mem {value : String}
    (h : '"' ∉ value.toList ∨ '\'' ∉ value.toList) :
    Spells (literal value) (Operand.string value).tokens := by
  by_cases hdouble : '"' ∈ value.toList
  · have hsingle := h.resolve_left (not_not_intro hdouble)
    have hliteral : literal value = String.ofList (quotation .single value.toList) := by
      simp [literal, hdouble, hsingle, String.ext_iff, quotation]
    rw [hliteral]
    exact Spells.string hsingle
  · have hliteral : literal value = String.ofList (quotation .double value.toList) := by
      simp [literal, hdouble, doubleQuoted, String.ext_iff, quotation]
    rw [hliteral]
    exact Spells.string hdouble

/-- The parts of a text with both quotation marks: its pieces between the double
marks, and the marks themselves. -/
def literalParts (value : String) : List String :=
  match pieces '"' value.toList with
  | [] => []
  | piece :: more =>
    String.ofList piece :: more.flatMap fun next => ["\"", String.ofList next]

section

variable {value : String}

/-- The parts make up the value. -/
lemma join_literalParts : String.join (literalParts value) = value := by
  obtain ⟨piece, more, hpieces⟩ :=
    List.exists_cons_of_ne_nil (pieces_ne_nil '"' value.toList)
  have hjoin : ['"'].intercalate (value.toList.splitOn '"') = value.toList :=
    List.intercalate_splitOn '"'
  rw [← pieces_eq_splitOn, hpieces, intercalate_cons] at hjoin
  rw [String.ext_iff, String.toList_join, literalParts, hpieces]
  simpa [List.flatMap_assoc] using hjoin

/-- If there are parts at all, there are two. -/
lemma two_le_length_literalParts (h : '"' ∈ value.toList) : 2 ≤ (literalParts value).length := by
  have hlength := two_le_length_pieces h
  rw [literalParts]
  match hpieces : pieces '"' value.toList with
  | [] => simp [hpieces] at hlength
  | [_] => simp [hpieces] at hlength
  | _ :: _ :: _ => simp

/-- No part has both quotation marks. -/
lemma of_mem_literalParts {part : String} (h : part ∈ literalParts value) :
    '"' ∉ part.toList ∨ '\'' ∉ part.toList := by
  have hpiece : ∀ piece ∈ pieces '"' value.toList, '"' ∉ (String.ofList piece).toList := by
    intro piece hmem
    simpa using not_mem_of_mem_pieces hmem
  rw [literalParts] at h
  split at h
  · simp at h
  · next piece more hpieces =>
      rw [hpieces] at hpiece
      simp only [List.mem_cons, List.mem_flatMap, List.not_mem_nil, or_false] at h
      rcases h with rfl | ⟨next, hnext, rfl | rfl⟩
      · exact .inl (hpiece _ List.mem_cons_self)
      · exact .inr (by decide)
      · exact .inl (hpiece _ (List.mem_cons_of_mem piece hnext))

/-- A text with both quotation marks is the concatenation of the literals of its
parts. -/
lemma literal_eq_callText (hdouble : '"' ∈ value.toList) (hsingle : '\'' ∈ value.toList) :
    literal value = callText .concat ((literalParts value).map literal) := by
  have hpiece : ∀ piece ∈ pieces '"' value.toList,
      literal (String.ofList piece) = doubleQuoted piece := by
    intro piece hmem
    simp [literal, not_mem_of_mem_pieces hmem]
  obtain ⟨piece, more, hpieces⟩ :=
    List.exists_cons_of_ne_nil (pieces_ne_nil '"' value.toList)
  rw [hpieces] at hpiece
  obtain ⟨hfirst, hmore⟩ := List.forall_mem_cons.mp hpiece
  have hmark : literal "\"" = "'\"'" := by decide +kernel
  have hparts : (literalParts value).map literal =
      doubleQuoted piece :: more.flatMap fun next => ["'\"'", doubleQuoted next] := by
    rw [literalParts, hpieces, List.map_cons, hfirst, List.map_flatMap]
    congr 1
    exact List.flatMap_congr fun next hnext => by simp [hmark, hmore next hnext]
  have hjoin : ", ".intercalate ((literalParts value).map literal) =
      ", '\"', ".intercalate ((piece :: more).map doubleQuoted) := by
    rw [hparts, String.ext_iff, String.toList_intercalate, String.toList_intercalate,
      List.map_cons, List.map_cons, List.map_cons, intercalate_cons, intercalate_cons]
    simp [List.flatMap_map, List.flatMap_assoc]
  rw [callText, hjoin, literal, if_neg (by simpa using hdouble), if_neg (by simpa using hsingle),
    hpieces]
  rfl

end

/-- The operand that a literal is. -/
def literalOperand (value : String) : Operand :=
  if '"' ∉ value.toList ∨ '\'' ∉ value.toList then .string value
  else .call .concat ((literalParts value).map fun part => .operand (.string part))

/-- A literal is from the first symbol to the last the operand it is meant to be. -/
lemma spells_literal (value : String) : Spells (literal value) (literalOperand value).tokens := by
  rw [literalOperand]
  split_ifs with h
  · exact spells_literal_of_not_mem h
  · obtain ⟨hdouble, hsingle⟩ := not_or.mp h
    rw [literal_eq_callText (not_not.mp hdouble) (not_not.mp hsingle)]
    refine Spells.call .concat ?_
    rw [List.forall₂_map_left_iff, List.forall₂_map_right_iff, List.forall₂_same]
    exact fun part hpart => spells_literal_of_not_mem (of_mem_literalParts hpart)

/-- A literal denotes its value, as one string or as several that are put together. -/
lemma denotes_literalOperand (value : String) : (literalOperand value).Denotes value := by
  rw [literalOperand]
  split_ifs with h
  · exact .string value
  · have hdenotes := Operand.Denotes.concat
      (two_le_length_literalParts (not_not.mp (not_or.mp h).1))
    rwa [join_literalParts] at hdenotes

/-- A literal as an expression. -/
def Expression.literal (value : String) : Expression := .operand (literalOperand value)

@[simp] lemma Expression.object?_literal (value : String) (node : Node) :
    (Expression.literal value).object? node = some (.text value) :=
  (denotes_literalOperand value).object?_eq node

/-- **Literals denote their texts.** Whatever marks stand in a text, its literal is
from the first symbol to the last one string or one concatenation of strings. No
other expression is written this way, and its value is the text. -/
theorem literal_denotes (value : String) :
    ∃ a : Operand, ReadsOnly (literal value) (.operand a) ∧ a.Denotes value ∧
      ∀ node, a.object? node = some (.text value) := by
  have hdenotes := denotes_literalOperand value
  exact ⟨literalOperand value, Spells.readsOnly (e := .literal value) (spells_literal value),
    hdenotes, hdenotes.object?_eq⟩

end SelectorPath.XPath
