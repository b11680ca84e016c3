/-
Solid pieces: written expressions that nothing outside of them can take apart.

* `XPath.Solid`: a balanced text that exposes neither a slash nor a bar.
* `XPath.solid_literal`: all three forms of a literal are solid, whatever the
  text in it.
* `Condition.solid_render`: so are conditions whose attribute names are words.
-/
import Mathlib.Tactic.Common
import SelectorPath.Proofs.Text.Balanced
import SelectorPath.XPath.Path

namespace SelectorPath.XPath

open Text

/-- A symbol that separates neither steps nor the branches of a union. -/
def IsInner (c : Char) : Prop := c ≠ '/' ∧ c ≠ '|'

instance : DecidablePred IsInner := fun c => inferInstanceAs (Decidable (c ≠ '/' ∧ c ≠ '|'))

/-- A written piece that exposes no separator. -/
def Solid (piece : String) : Prop := Balanced IsInner piece.toList

/-- A written piece inside a group, where separators are hidden. -/
def Enclosed (piece : String) : Prop := Balanced (fun _ => True) piece.toList

/-- A text that can be written as it is. -/
def IsWord (text : String) : Prop := ∀ c ∈ text.toList, IsPlain c ∧ IsInner c

instance : DecidablePred IsWord := fun text => List.decidableBAll _ text.toList

/-- A class of symbols without brackets, quotation marks and separators makes
words. -/
lemma isWord_of_class {p : Char → Bool}
    (hp : ['(', ')', '[', ']', '"', '\'', '/', '|'].all fun m => !p m) {text : String}
    (h : ∀ c ∈ text.toList, p c = true) : IsWord text := by
  intro c hc
  have hfree : c ∉ ['(', ')', '[', ']', '"', '\'', '/', '|'] := by
    intro hmem
    have hout := List.all_eq_true.mp hp c hmem
    rw [h c hc] at hout
    exact Bool.false_ne_true hout
  simpa [IsPlain, IsInner, and_assoc] using hfree

/-! ### Building solid pieces -/

namespace Solid

variable {a b : String}

lemma enclosed (h : Solid a) : Enclosed a := h.mono fun _ _ => trivial

lemma of_isWord (h : IsWord a) : Solid a := Balanced.of_plain h

/-- Two solid parts are solid together. -/
lemma append (ha : Solid a) (hb : Solid b) : Solid (a ++ b) := by
  rw [Solid, String.toList_append]
  exact Balanced.append ha hb

/-- A function with its arguments. -/
lemma call (name : String) (hname : IsWord name) (h : Enclosed a) :
    Solid (name ++ "(" ++ a ++ ")") := by
  simpa [Solid] using Balanced.call hname h

/-- A node test with a predicate. -/
lemma predicate (test : String) (htest : IsWord test) (h : Enclosed a) :
    Solid (test ++ "[" ++ a ++ "]") := by
  simpa [Solid] using (Balanced.of_plain htest).append (.group .square h)

end Solid

namespace Enclosed

variable {a b : String}

lemma of_isWord (h : IsWord a) : Enclosed a := (Solid.of_isWord h).enclosed

lemma append (ha : Enclosed a) (hb : Enclosed b) : Enclosed (a ++ b) := by
  rw [Enclosed, String.toList_append]
  exact Balanced.append ha hb

/-- An argument before another. -/
lemma comma (ha : Enclosed a) (hb : Enclosed b) : Enclosed (a ++ ", " ++ b) :=
  (ha.append (.of_isWord (by decide))).append hb

end Enclosed

/-! ### Literals -/

/-- Pieces do not contain what they are cut at. -/
lemma not_mem_of_mem_pieces {c : Char} {text piece : List Char} (h : piece ∈ pieces c text) :
    c ∉ piece := by
  induction text generalizing piece with
  | nil => simp_all [pieces]
  | cons a rest ih =>
      rw [pieces] at h
      split at h
      · next hnil => exact absurd hnil (pieces_ne_nil c rest)
      · next first more heq =>
          rw [heq] at ih
          split_ifs at h with hac
          · rcases List.mem_cons.mp h with rfl | hmem
            · exact List.not_mem_nil
            · exact ih hmem
          · rcases List.mem_cons.mp h with rfl | hmem
            · simpa [Ne.symm hac] using ih List.mem_cons_self
            · exact ih (List.mem_cons_of_mem first hmem)

/-- In quotation marks all symbols are allowed but the mark itself. -/
lemma solid_doubleQuoted {text : List Char} (h : '"' ∉ text) : Solid (doubleQuoted text) := by
  have hquoted : Balanced IsInner ('"' :: (text ++ ['"'])) := .quoted .double h
  simpa [Solid, doubleQuoted] using hquoted

lemma solid_singleQuoted {text : String} (h : '\'' ∉ text.toList) : Solid ("'" ++ text ++ "'") := by
  have hquoted : Balanced IsInner ('\'' :: (text.toList ++ ['\''])) := .quoted .single h
  simpa [Solid] using hquoted

/-- A literal is solid, whatever its text. -/
theorem solid_literal (value : String) : Solid (literal value) := by
  rw [literal]
  split_ifs with hdouble hsingle
  · exact solid_doubleQuoted (by simpa using hdouble)
  · exact solid_singleQuoted (by simpa using hsingle)
  · have hmark : Enclosed ", '\"', " := by
      have hquote : Solid ("'" ++ "\"" ++ "'") := solid_singleQuoted (by decide)
      simpa [Enclosed] using (Enclosed.comma (a := "") .nil hquote.enclosed).comma (b := "") .nil
    have hparts : Enclosed
        (", '\"', ".intercalate ((pieces '"' value.toList).map doubleQuoted)) := by
      rw [Enclosed, String.toList_intercalate]
      refine Balanced.intercalate hmark fun p hp => ?_
      simp only [List.map_map, List.mem_map, Function.comp_apply] at hp
      obtain ⟨piece, hpiece, rfl⟩ := hp
      exact (solid_doubleQuoted (not_mem_of_mem_pieces hpiece)).enclosed
    simpa [Solid] using Solid.call "concat" (by decide) hparts

/-! ### Conditions -/

lemma isWord_repr (n : Nat) : IsWord n.repr := by
  refine isWord_of_class (p := Char.isDigit) (by decide) fun c hc => ?_
  rw [Nat.toList_repr] at hc
  exact Nat.isDigit_of_mem_toDigits (by decide) (by decide) hc

lemma solid_toString (i : Int) : Solid (toString i) := by
  rw [Int.toString_eq_repr, Int.repr_eq_if]
  split_ifs
  · exact .of_isWord (isWord_repr _)
  · exact .append (.of_isWord (by decide)) (.of_isWord (isWord_repr _))

/-- By induction over the number; what it is made of stands in parentheses or between
spaces. -/
lemma Number.solid_render (n : Number) : Solid n.render := by
  -- the equations of `render` are slow to derive, its unfolding is not
  induction n with
  | position =>
      rw [render.eq_def]
      simpa [Solid] using Solid.call "position" (by decide) (a := "") .nil
  | last =>
      rw [render.eq_def]
      simpa [Solid] using Solid.call "last" (by decide) (a := "") .nil
  | descendants =>
      have harg : Solid "descendant::*" := .of_isWord (by decide)
      rw [render.eq_def]
      simpa [Solid] using Solid.call "count" (by decide) harg.enclosed
  | integer i => exact solid_toString i
  | sum a b iha ihb =>
      have hsign : Solid " + " := .of_isWord (by decide)
      rw [render.eq_def]
      simpa [Solid] using
        Solid.call "" (by decide) ((iha.append hsign).append ihb).enclosed
  | difference a b iha ihb =>
      have hsign : Solid " - " := .of_isWord (by decide)
      rw [render.eq_def]
      simpa [Solid] using
        Solid.call "" (by decide) ((iha.append hsign).append ihb).enclosed
  | remainder a b iha ihb => exact (iha.append (.of_isWord (by decide))).append ihb

/-- The attribute names in a value are words. -/
def Value.WellNamed : Value → Prop
  | .attributeValue name => IsWord name
  | .normalized a | .lowered a | .mapped a _ _ => a.WellNamed
  | .concatenation a b c => a.WellNamed ∧ b.WellNamed ∧ c.WellNamed
  | .literal _ | .nodeName | .content | .texts => True

/-- Names are words, and all other text is quoted. -/
lemma Value.solid_render {v : Value} (h : v.WellNamed) : Solid v.render := by
  induction v with
  | attributeValue name => exact .append (.of_isWord (by decide)) (.of_isWord h)
  | literal value => exact solid_literal value
  | nodeName =>
      rw [render.eq_def]
      simpa [Solid] using Solid.call "name" (by decide) (a := "") .nil
  | content => exact .of_isWord (by decide)
  | texts =>
      rw [render.eq_def]
      simpa [Solid] using Solid.call "text" (by decide) (a := "") .nil
  | normalized a ih =>
      rw [render.eq_def]
      simpa [Solid] using Solid.call "normalize-space" (by decide) (ih h).enclosed
  | concatenation a b c iha ihb ihc =>
      have hargs := ((iha h.1).enclosed.comma (ihb h.2.1).enclosed).comma (ihc h.2.2).enclosed
      rw [render.eq_def]
      simpa [Solid] using Solid.call "concat" (by decide) hargs
  | lowered a ih =>
      rw [render.eq_def]
      simpa [Solid] using Solid.call "lower-case" (by decide) (ih h).enclosed
  | mapped a source target ih =>
      have hargs := ((ih h).enclosed.comma (solid_literal source).enclosed).comma
        (solid_literal target).enclosed
      rw [render.eq_def]
      simpa [Solid] using Solid.call "translate" (by decide) hargs

/-- The attribute names in an equality are words. -/
def Equality.WellNamed (e : Equality) : Prop := e.left.WellNamed ∧ e.right.WellNamed

lemma Equality.solid_render {e : Equality} (h : e.WellNamed) : Solid e.render := by
  have hsign : Solid e.spacing.sign := by
    cases e.spacing <;> exact .of_isWord (by decide)
  exact ((Value.solid_render h.1).append hsign).append (Value.solid_render h.2)

lemma Folding.wellNamed_equality (folding : Folding) (text : String) :
    (folding.equality text).WellNamed := by
  cases folding <;> exact ⟨trivial, trivial⟩

/-- The attribute names in a condition are words. -/
def Condition.WellNamed : Condition → Prop
  | .compare _ _ _ | .caseless _ => True
  | .equal equality => equality.WellNamed
  | .startsWith a b | .endsWith a b | .contains a b => a.WellNamed ∧ b.WellNamed
  | .hasAttribute name => IsWord name
  | .someAttribute c | .someAttributeIs c _ | .negation c | .group c => c.WellNamed
  | .conjunction a b => a.WellNamed ∧ b.WellNamed

/-- A condition with well-formed attribute names is solid. -/
theorem Condition.solid_render (folding : Folding) {c : Condition} (h : c.WellNamed) :
    Solid (c.render folding) := by
  induction c with
  | compare relation a b =>
      have hsign : Solid relation.render := by
        cases relation <;> exact .of_isWord (by decide)
      have hspace : Solid " " := .of_isWord (by decide)
      exact (((a.solid_render.append hspace).append hsign).append hspace).append b.solid_render
  | equal equality => exact Equality.solid_render h
  | caseless text => exact Equality.solid_render (folding.wellNamed_equality text)
  | startsWith a b =>
      have hargs := (Value.solid_render h.1).enclosed.comma (Value.solid_render h.2).enclosed
      rw [render.eq_def]
      simpa [Solid] using Solid.call "starts-with" (by decide) hargs
  | endsWith a b =>
      have hargs := (Value.solid_render h.1).enclosed.comma (Value.solid_render h.2).enclosed
      rw [render.eq_def]
      simpa [Solid] using Solid.call "ends-with" (by decide) hargs
  | contains a b =>
      have hargs := (Value.solid_render h.1).enclosed.comma (Value.solid_render h.2).enclosed
      rw [render.eq_def]
      simpa [Solid] using Solid.call "contains" (by decide) hargs
  | hasAttribute name => exact .append (.of_isWord (by decide)) (.of_isWord h)
  | someAttribute c ih =>
      rw [render.eq_def]
      simpa [Solid] using Solid.predicate "@*" (by decide) (ih h).enclosed
  | someAttributeIs c value ih =>
      have htest := Solid.predicate "@*" (by decide) (ih h).enclosed
      have hsign : Solid "=" := .of_isWord (by decide)
      rw [render.eq_def]
      simpa [Solid] using (htest.append hsign).append (solid_literal value)
  | negation c ih =>
      rw [render.eq_def]
      simpa [Solid] using Solid.call "not" (by decide) (ih h).enclosed
  | conjunction a b iha ihb =>
      -- a conjunction has no parentheses, and so its parts have to be solid themselves
      exact ((iha h.1).append (.of_isWord (by decide))).append (ihb h.2)
  | group c ih =>
      rw [render.eq_def]
      simpa [Solid] using Solid.call "" (by decide) (ih h).enclosed

end SelectorPath.XPath
