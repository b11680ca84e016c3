/-
What the folding changes in a written path.

Only a comparison without regard to case is written in two ways, and the one with
an alphabet is the longer. Everything else puts texts together. So a path is
written in two ways exactly if there is such a comparison in it.

* `Varies`: two texts are the same, unless something holds, and then the second is
  longer; with rules for texts that are put together.
* `Condition.varies_caseless`, `Condition.Steady`: the condition that varies, and
  those that do not.
* `Step.varies_body`, `Path.varies_render`, `Predicate.varies_reaches`,
  `Predicate.varies_avoids`: steps, paths and predicates.
-/
import Mathlib.Data.List.Forall2
import SelectorPath.Proofs.XPath.Pieces

namespace SelectorPath

/-! ### Small letters -/

/-- A mark that comes before the letters is the small form of itself only. -/
lemma toLower_eq_mark_iff {mark : Char} (hmark : mark.toNat < 65) (c : Char) :
    c.toLower = mark ↔ c = mark := by
  delta Char.toLower
  split
  · next hcapital =>
      have hlow : 65 ≤ c.toNat := UInt32.le_iff_toNat_le.mp hcapital.1
      have hhigh : c.toNat ≤ 90 := UInt32.le_iff_toNat_le.mp hcapital.2
      have hsmall : (c.val + ('a'.val - 'A'.val)).toNat = c.toNat + 32 := by
        rw [UInt32.toNat_add]
        exact Nat.mod_eq_of_lt (show c.toNat + 32 < 2 ^ 32 by omega)
      refine ⟨fun h => ?_, fun h => ?_⟩
      · rw [← h] at hmark
        change (c.val + ('a'.val - 'A'.val)).toNat < 65 at hmark
        omega
      · rw [← h] at hmark
        omega
  · rfl

/-- Marks below the letters are kept, and no letter becomes one. -/
lemma mem_map_toLower_iff {mark : Char} (hmark : mark.toNat < 65) (text : List Char) :
    mark ∈ text.map Char.toLower ↔ mark ∈ text := by
  simp [toLower_eq_mark_iff hmark]

/-- So a text is cut at the same places before and after. -/
lemma Text.pieces_map_toLower {mark : Char} (hmark : mark.toNat < 65) (text : List Char) :
    pieces mark (text.map Char.toLower) = (pieces mark text).map (·.map Char.toLower) := by
  induction text with
  | nil => rfl
  | cons c text ih =>
      rw [List.map_cons, pieces, pieces, ih]
      cases pieces mark text with
      | nil => rfl
      | cons piece more =>
          simp only [List.map_cons, toLower_eq_mark_iff hmark]
          split_ifs <;> rfl

namespace XPath

lemma intercalate_cons_eq_join (separator first : String) (rest : List String) :
    separator.intercalate (first :: rest) = first ++ String.join (rest.map (separator ++ ·)) := by
  rw [← Outline.intercalate_empty_cons, ← String.intercalate_cons_append, String.append_empty]

/-- The length of a literal does not depend on the case of its text. -/
lemma length_literal_lowered (text : String) :
    (literal (lowered text)).length = (literal text).length := by
  have hchars : (lowered text).toList = text.toList.map Char.toLower := String.toList_ofList
  have hlength : (lowered text).length = text.length := by
    rw [← String.length_toList, hchars, List.length_map, String.length_toList]
  have hquoted : ∀ piece : List Char,
      (doubleQuoted (piece.map Char.toLower)).length = (doubleQuoted piece).length := by
    intro piece
    simp [doubleQuoted]
  have hmark : ∀ mark : Char, mark.toNat < 65 →
      (text.toList.map Char.toLower).contains mark = text.toList.contains mark := by
    intro mark hmark
    rw [Bool.eq_iff_iff, List.contains_iff_mem, List.contains_iff_mem,
      mem_map_toLower_iff hmark]
  rw [literal, literal, hchars, hmark '"' (by decide), hmark '\'' (by decide)]
  split_ifs
  · exact hquoted text.toList
  · simp [hlength]
  · rw [Text.pieces_map_toLower (by decide)]
    cases hpieces : Text.pieces '"' text.toList with
    | nil => exact absurd hpieces (Text.pieces_ne_nil '"' text.toList)
    | cons piece more =>
        simp [intercalate_cons_eq_join, hquoted, Function.comp_def]

/-! ### Texts that vary -/

/-- The texts are the same unless `P` holds, and then the second is longer. -/
structure Varies (P : Prop) (a b : String) : Prop where
  /-- The same text. -/
  same : ¬P → a = b
  /-- A longer text. -/
  longer : P → a.length < b.length

namespace Varies

variable {P Q : Prop} {a b c d : String}

/-- The texts are the same exactly if nothing in them folds case. -/
lemma eq_iff (h : Varies P a b) : a = b ↔ ¬P := by
  refine ⟨fun heq hP => ?_, h.same⟩
  have hlt := h.longer hP
  rw [heq] at hlt
  exact Nat.lt_irrefl _ hlt

lemma congr (h : Varies P a b) (hiff : P ↔ Q) : Varies Q a b :=
  ⟨fun hQ => h.same (hiff.not.mpr hQ), fun hQ => h.longer (hiff.mpr hQ)⟩

lemma of_eq (heq : a = b) : Varies False a b := ⟨fun _ => heq, False.elim⟩

/-- The longer text has the function that folds case in it. -/
lemma length_le (h : Varies P a b) : a.length ≤ b.length := by
  by_cases hP : P
  · exact Nat.le_of_lt (h.longer hP)
  · exact Nat.le_of_eq (congrArg String.length (h.same hP))

/-- Two parts vary together if one of them does. Since no part gets shorter, a change in
one cannot be made up for by the other. -/
lemma append (hab : Varies P a b) (hcd : Varies Q c d) : Varies (P ∨ Q) (a ++ c) (b ++ d) := by
  constructor
  · intro hnot
    obtain ⟨hP, hQ⟩ := not_or.mp hnot
    rw [hab.same hP, hcd.same hQ]
  · intro hor
    have hle := hab.length_le
    have hle' := hcd.length_le
    rw [String.length_append, String.length_append]
    rcases hor with hP | hQ
    · have hlt := hab.longer hP
      omega
    · have hlt := hcd.longer hQ
      omega

lemma lead (h : Varies P a b) (before : String) : Varies P (before ++ a) (before ++ b) :=
  ((of_eq rfl).append h).congr (by rw [false_or])

lemma trail (h : Varies P a b) (after : String) : Varies P (a ++ after) (b ++ after) :=
  (h.append (of_eq rfl)).congr (by rw [or_false])

section Lists

variable {α β : Type} {R : α → Prop} {f g : β → String} {xs : List α} {ys : List β}

/-- Any number of parts, by induction over the list. -/
lemma join (h : List.Forall₂ (fun x y => Varies (R x) (f y) (g y)) xs ys) :
    Varies (∃ x ∈ xs, R x) (String.join (ys.map f)) (String.join (ys.map g)) := by
  induction h with
  | nil => exact (of_eq rfl).congr (by simp)
  | @cons x y xs ys hy _ ih =>
      rw [List.map_cons, List.map_cons, String.join_cons, String.join_cons]
      exact (hy.append ih).congr (by rw [List.exists_mem_cons_iff])

/-- The same with something between the parts. -/
lemma intercalate (h : List.Forall₂ (fun x y => Varies (R x) (f y) (g y)) xs ys)
    (separator : String) :
    Varies (∃ x ∈ xs, R x) (separator.intercalate (ys.map f))
      (separator.intercalate (ys.map g)) := by
  cases h with
  | nil => exact (of_eq rfl).congr (by simp)
  | @cons x y xs ys hy hys =>
      have hrest := join (hys.imp fun x y hxy => hxy.lead separator)
      rw [List.map_cons, List.map_cons, intercalate_cons_eq_join, intercalate_cons_eq_join,
        List.map_map, List.map_map, List.exists_mem_cons_iff]
      exact hy.append hrest

/-- Lists of such texts are the same unless one of them varies. -/
lemma map_eq_iff (h : List.Forall₂ (fun x y => Varies (R x) (f y) (g y)) xs ys) :
    ys.map f = ys.map g ↔ ∀ x ∈ xs, ¬R x := by
  induction h with
  | nil => simp
  | @cons x y xs ys hy _ ih =>
      rw [List.map_cons, List.map_cons, List.cons.injEq, hy.eq_iff, ih, List.forall_mem_cons]

end Lists

end Varies

/-! ### Conditions and steps -/

/-- Comparing with an alphabet takes a longer text. -/
lemma Condition.varies_caseless (text : String) :
    Varies True ((caseless text).render .lowerCase) ((caseless text).render .ascii) := by
  refine ⟨fun hnot => absurd trivial hnot, fun _ => ?_⟩
  -- the equations of `render` are slow to derive
  have hlower : (caseless text).render .lowerCase =
      "lower-case(" ++ "." ++ ")" ++ " = " ++ ("lower-case(" ++ literal text ++ ")") := rfl
  have hascii : (caseless text).render .ascii =
      "translate(" ++ "." ++ ", " ++ literal capitals ++ ", " ++ literal smallLetters ++ ")" ++
        " = " ++ literal (lowered text) := rfl
  have halphabets : (literal capitals).length = 28 ∧ (literal smallLetters).length = 28 := by
    decide +kernel
  have hpieces : "lower-case(".length = 11 ∧ "translate(".length = 10 ∧ ")".length = 1 := by decide
  rw [hlower, hascii]
  simp only [String.length_append, length_literal_lowered]
  omega

/-- The condition is written in one way. -/
def Condition.Steady (c : Condition) : Prop := c.render .lowerCase = c.render .ascii

/-- A step varies with the last of its predicates. -/
lemma Step.varies_body {P : Prop} {conditions : List Condition}
    (hsteady : ∀ c ∈ conditions, c.Steady) {predicate : Predicate}
    (h : Varies P (predicate.render .lowerCase) (predicate.render .ascii)) (axis : Axis)
    (test : NodeTest) :
    Varies P (body .lowerCase ⟨axis, test, conditions.map .holds ++ [predicate]⟩)
      (body .ascii ⟨axis, test, conditions.map .holds ++ [predicate]⟩) := by
  have hconditions : conditions.map (Condition.render .lowerCase) =
      conditions.map (Condition.render .ascii) := List.map_congr_left hsteady
  have hrender : ∀ folding, Predicate.renderAll folding (conditions.map .holds ++ [predicate]) =
      conditions.map (Condition.render folding) ++ [predicate.render folding] := by
    intro folding
    rw [Predicate.renderAll_eq_map, List.map_append, List.map_map]
    rfl
  rw [body, body, hrender, hrender, hconditions]
  cases conditions.map (Condition.render .ascii) with
  | nil => exact (h.lead _).trail _
  | cons first more =>
      have hgroups : ∀ last, ") and (".intercalate (first :: more ++ [last]) =
          ") and (".intercalate (first :: more) ++ ") and (" ++ last := by
        intro last
        rw [String.intercalate_append_of_ne_nil (List.cons_ne_nil first more)
          (List.cons_ne_nil last []), String.intercalate_singleton]
      have hbracketed : ∀ last, bracketed test (first :: more ++ [last]) =
          test.text ++ "[(" ++ ") and (".intercalate (first :: more ++ [last]) ++ ")]" := by
        intro last
        cases more <;> rfl
      rw [hbracketed, hbracketed, hgroups, hgroups]
      exact ((h.lead _).lead _).trail _

/-- Steps that vary make a path that does. -/
lemma Path.varies_render {α : Type} {R : α → Prop} {xs : List α} {steps : List Step}
    (h : List.Forall₂ (fun x (s : Step) => Varies (R x) (s.body .lowerCase) (s.body .ascii))
      xs steps) (property : Option Property) (anchor : Anchor) :
    Varies (∃ x ∈ xs, R x) (render .lowerCase anchor ⟨steps, property⟩)
      (render .ascii anchor ⟨steps, property⟩) := by
  cases h with
  | nil => exact (Varies.of_eq rfl).congr (by simp)
  | @cons x step xs steps hstep hsteps =>
      have hrender : ∀ folding, render folding anchor ⟨step :: steps, property⟩ =
          anchor.lead step.axis ++ step.body folding ++
            String.join (steps.map fun s => s.axis.slashes ++ s.body folding) ++
              Outline.ending (property.map Property.render) := by
        intro folding
        rw [render, outline, Step.bodies, Step.bodies_eq_map]
        simp only [Outline.render, Outline.chain, List.map_map, Function.comp_def]
      have hchain := Varies.join (hsteps.imp fun x s hs => hs.lead s.axis.slashes)
      rw [hrender, hrender, List.exists_mem_cons_iff]
      exact ((hstep.lead _).append hchain).trail _

section Predicates

variable {α : Type} {R : α → Prop} {xs : List α} {paths : List Path}

/-- A predicate varies if a path inside it does. -/
lemma Predicate.varies_reaches (h : List.Forall₂ (fun x (p : Path) => ∀ anchor,
    Varies (R x) (p.render .lowerCase anchor) (p.render .ascii anchor)) xs paths) :
    Varies (∃ x ∈ xs, R x) ((reaches paths).render .lowerCase)
      ((reaches paths).render .ascii) := by
  rw [render, render, Path.renderAll_eq_map, Path.renderAll_eq_map]
  exact Varies.intercalate (h.imp fun x p hp => hp .relative) " | "

lemma Predicate.varies_avoids (h : List.Forall₂ (fun x (p : Path) => ∀ anchor,
    Varies (R x) (p.render .lowerCase anchor) (p.render .ascii anchor)) xs paths) :
    Varies (∃ x ∈ xs, R x) ((avoids paths).render .lowerCase) ((avoids paths).render .ascii) := by
  rw [render, render, Path.outlines_eq_map, Path.outlines_eq_map, List.map_map, List.map_map]
  exact Varies.intercalate (h.imp fun x p hp => ((hp .self).lead "not(self::").trail ")") " and "

end Predicates

end XPath

end SelectorPath
