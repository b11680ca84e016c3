/-
The pieces of a written path.

A path is read from left to right: a slash ends a step, unless it stands in a
predicate or a quotation. So what a reader takes for the steps of a written
path is found by cutting the text at its top-level slashes.

* `Step.IsSolid`, `Path.IsSolid`: the written steps are not empty and expose no
  separator.
* `Path.balanced_render`: such a path is balanced and exposes no bar, from
  every anchor. So it can stand in a predicate (`enclosed_reaches`,
  `enclosed_avoids`) and in a union.
* `Outline.pieces`: the pieces that the steps of a path stand for.
* `Outline.splitTopLevel_render`: cutting a written path at its top-level
  slashes gives these pieces and nothing else.
-/
import SelectorPath.Proofs.XPath.Solid

namespace SelectorPath.XPath

open Text

/-! ### Properties and steps -/

/-- A property is solid, whatever the attribute names in it. -/
theorem Property.solid_render (p : Property) : Solid p.render := by
  cases p with
  | text => simpa [Solid, render] using Solid.call "text" (by decide) (a := "") .nil
  | attributes names =>
      have htests : Enclosed (" or ".intercalate (names.map fun name =>
          Equality.render ⟨.wide, .nodeName, .literal name⟩)) := by
        rw [Enclosed, String.toList_intercalate]
        refine Balanced.intercalate (Enclosed.of_isWord (by decide)) fun p hp => ?_
        simp only [List.map_map, List.mem_map, Function.comp_apply] at hp
        obtain ⟨name, -, rfl⟩ := hp
        exact (Equality.solid_render (e := ⟨.wide, .nodeName, .literal name⟩)
          ⟨trivial, trivial⟩).enclosed
      simpa [Solid, render] using Solid.predicate "@*" (by decide) htests

/-- Several predicates in parentheses of their own. -/
lemma enclosed_conjunction {ps : List String} (hne : ps ≠ []) (h : ∀ p ∈ ps, Enclosed p) :
    Enclosed ("(" ++ ") and (".intercalate ps ++ ")") := by
  have hgroup : ∀ p, Enclosed p → Enclosed ("(" ++ p ++ ")") := by
    intro p hp
    have hround : Balanced (fun _ => True) ('(' :: (p.toList ++ [')'])) := .group .round hp
    simpa [Enclosed] using hround
  induction ps with
  | nil => exact absurd rfl hne
  | cons p ps ih =>
      have hp := hgroup p (h p List.mem_cons_self)
      cases ps with
      | nil => rwa [String.intercalate_singleton]
      | cons q qs =>
          have hrest := ih (List.cons_ne_nil q qs) fun r hr => h r (List.mem_cons_of_mem p hr)
          have hand : Enclosed " and " := .of_isWord (by decide)
          rw [String.intercalate_cons_cons]
          simpa [Enclosed] using (hp.append hand).append hrest

/-- A node test with any number of predicates is solid. -/
theorem solid_bracketed {test : NodeTest} (htest : IsWord test.text) {ps : List String}
    (h : ∀ p ∈ ps, Enclosed p) : Solid (bracketed test ps) := by
  rw [bracketed.eq_def]
  split
  · exact .of_isWord htest
  · next p => exact .predicate _ htest (h p List.mem_cons_self)
  · next hnil _ =>
      simpa [Solid] using Solid.predicate _ htest (enclosed_conjunction (fun heq => hnil heq) h)

/-- The step is a solid piece, and not an empty one. -/
def Step.IsSolid (s : Step) : Prop :=
  ∀ folding, s.body folding ≠ "" ∧ Solid (s.body folding)

/-- All steps of the path are solid. -/
def Path.IsSolid (p : Path) : Prop := ∀ s ∈ p.steps, s.IsSolid

lemma bracketed_ne_empty {test : NodeTest} (htest : test.text ≠ "") (ps : List String) :
    bracketed test ps ≠ "" := by
  rw [bracketed.eq_def]
  split <;> simp [htest]

/-! ### Outlines -/

namespace Outline

/-- The written steps and the property of the outline are solid. -/
def IsSolid (o : Outline) : Prop :=
  (∀ step ∈ o.steps, Solid step.2) ∧ ∀ p ∈ o.property, Solid p

lemma balanced_slash : Balanced (· ≠ '|') "/".toList := .plain (by decide) (by decide)

lemma balanced_slashes (axis : Axis) : Balanced (· ≠ '|') axis.slashes.toList := by
  cases axis with
  | descendant => exact balanced_slash.append balanced_slash
  | child => exact balanced_slash

/-- What an expression begins with has no bar in it. -/
lemma balanced_lead (anchor : Anchor) (axis : Axis) :
    Balanced (· ≠ '|') (anchor.lead axis).toList := by
  cases anchor with
  | document => exact balanced_slashes axis
  | relative =>
      have hdot : Balanced (· ≠ '|') ".".toList := .plain (by decide) (by decide)
      rw [Anchor.lead, String.toList_append]
      exact hdot.append (balanced_slashes axis)
  | self => exact .nil

/-- A solid outline exposes no bar, from whatever anchor it is written. -/
theorem balanced_render {o : Outline} (h : o.IsSolid) (anchor : Anchor) :
    Balanced (· ≠ '|') (o.render anchor).toList := by
  -- a solid text exposes neither slashes nor bars; here the bars matter
  have hsolid : ∀ {piece}, Solid piece → Balanced (· ≠ '|') piece.toList :=
    fun hpiece => hpiece.mono fun _ hc => hc.2
  have hending : Balanced (· ≠ '|') (ending o.property).toList := by
    cases hp : o.property with
    | none => exact .nil
    | some p =>
        rw [ending, String.toList_append]
        exact balanced_slash.append (hsolid (h.2 p hp))
  rw [render]
  split
  · exact hending
  · next axis body more hsteps =>
      obtain ⟨hbody, hmore⟩ := List.forall_mem_cons.mp (hsteps ▸ h.1)
      have hchain : Balanced (· ≠ '|') (chain more).toList := by
        rw [chain, String.toList_join]
        clear hsteps
        induction more with
        | nil => exact .nil
        | cons step more ih =>
            obtain ⟨hstep, hmore⟩ := List.forall_mem_cons.mp hmore
            rw [List.map_cons, List.flatMap_cons, String.toList_append]
            exact ((balanced_slashes step.1).append (hsolid hstep)).append (ih hmore)
      simp only [String.toList_append]
      exact (((balanced_lead anchor axis).append (hsolid hbody)).append hchain).append hending

/-- The pieces of a step between slashes. An empty one stands before the step
if there are two slashes in front of it. -/
def stepPieces (axis : Axis) (body : String) : List String :=
  match axis with
  | .descendant => ["", body]
  | .child => [body]

/-- The pieces of a written path between its slashes. The first one, before
the leading slash, is empty. -/
def pieces (o : Outline) : List String :=
  "" :: (o.steps.flatMap fun step => stepPieces step.1 step.2) ++ o.property.toList

lemma intercalate_empty_cons (separator : String) (parts : List String) :
    separator.intercalate ("" :: parts) = String.join (parts.map (separator ++ ·)) := by
  induction parts with
  | nil => simp
  | cons p ps ih =>
      have hp : p = p ++ "" := by simp
      rw [String.intercalate_cons_cons, hp, String.intercalate_cons_append, ih]
      simp [String.append_assoc]

/-- A path from the root of the document is its pieces with slashes between
them. -/
lemma render_document (o : Outline) : o.render .document = "/".intercalate o.pieces := by
  -- two slashes are a slash, an empty piece and another slash
  have hstep : ∀ axis body,
      axis.slashes ++ body = String.join ((stepPieces axis body).map ("/" ++ ·)) := by
    intro axis body
    cases axis with
    | descendant => rw [← String.toList_inj]; simp [stepPieces, Axis.slashes]
    | child => simp [stepPieces, Axis.slashes]
  have hchain : ∀ steps, chain steps =
      String.join ((steps.flatMap fun step => stepPieces step.1 step.2).map ("/" ++ ·)) := by
    intro steps
    induction steps with
    | nil => rfl
    | cons step steps ih =>
        rw [chain] at ih ⊢
        rw [List.map_cons, String.join_cons, ih, hstep, List.flatMap_cons, List.map_append,
          String.join_append]
  have hending : ending o.property = String.join (o.property.toList.map ("/" ++ ·)) := by
    cases o.property <;> simp [ending]
  have hrender : o.render .document = chain o.steps ++ ending o.property := by
    rw [render]
    split
    · next hsteps => simp [hsteps, chain]
    · next hsteps => simp [hsteps, chain, Anchor.lead]
  rw [hrender, pieces, List.cons_append, intercalate_empty_cons, List.map_append,
    String.join_append, hchain, hending]

/-- Cutting a written path at its top-level slashes gives its pieces. -/
theorem splitTopLevel_render {o : Outline} (h : o.IsSolid) :
    splitTopLevel '/' (o.render .document).toList = some (o.pieces.map String.toList) := by
  have hsolid : ∀ piece ∈ o.pieces, Solid piece := by
    intro piece hpiece
    simp only [pieces, List.cons_append, List.mem_cons, List.mem_append, List.mem_flatMap,
      Option.mem_toList] at hpiece
    rcases hpiece with rfl | ⟨step, hstep, hpiece⟩ | hpiece
    · exact .nil
    · have hbody := h.1 step hstep
      cases haxis : step.1 <;> simp only [haxis, stepPieces, List.mem_cons, List.not_mem_nil,
        or_false] at hpiece
      · rcases hpiece with rfl | rfl
        · exact .nil
        · exact hbody
      · exact hpiece ▸ hbody
    · exact h.2 piece hpiece
  rw [render_document, String.toList_intercalate]
  refine splitTopLevel_intercalate (by decide) (by simp [pieces]) fun p hp => ?_
  obtain ⟨piece, hpiece, rfl⟩ := List.mem_map.mp hp
  exact (hsolid piece hpiece).mono fun _ hc => hc.1

end Outline

/-! ### Paths -/

lemma Path.isSolid_outline {p : Path} (h : p.IsSolid) (folding : Folding) :
    (p.outline folding).IsSolid := by
  obtain ⟨steps, property⟩ := p
  rw [Path.outline, Step.bodies_eq_map]
  constructor
  · intro step hstep
    obtain ⟨s, hs, rfl⟩ := List.mem_map.mp hstep
    exact (h s hs folding).2
  · intro piece hpiece
    obtain ⟨q, -, rfl⟩ := Option.map_eq_some_iff.mp hpiece
    exact q.solid_render

/-- A path with solid steps is balanced and exposes no bar. -/
theorem Path.balanced_render {p : Path} (h : p.IsSolid) (folding : Folding) (anchor : Anchor) :
    Balanced (· ≠ '|') (p.render folding anchor).toList :=
  Outline.balanced_render (Path.isSolid_outline h folding) anchor

/-- Paths with solid steps, each somehow wrapped, in a predicate. -/
lemma enclosed_reaches (folding : Folding) {paths : List Path} (h : ∀ p ∈ paths, p.IsSolid) :
    Enclosed ((Predicate.reaches paths).render folding) := by
  have hbar : Enclosed " | " := .of_plain (by simp [IsPlain])
  rw [Predicate.render, Path.renderAll_eq_map, Enclosed, String.toList_intercalate]
  refine Balanced.intercalate hbar fun piece hpiece => ?_
  simp only [List.map_map, List.mem_map, Function.comp_apply] at hpiece
  obtain ⟨p, hp, rfl⟩ := hpiece
  exact (Path.balanced_render (h p hp) folding .relative).mono fun _ _ => trivial

/-- The bars between paths inside a predicate stand in parentheses. -/
lemma enclosed_avoids (folding : Folding) {paths : List Path} (h : ∀ p ∈ paths, p.IsSolid) :
    Enclosed ((Predicate.avoids paths).render folding) := by
  rw [Predicate.render, Path.outlines_eq_map, Enclosed, String.toList_intercalate]
  refine Balanced.intercalate (Enclosed.of_isWord (by decide)) fun piece hpiece => ?_
  simp only [List.map_map, List.mem_map, Function.comp_apply] at hpiece
  obtain ⟨p, hp, rfl⟩ := hpiece
  have hself : Enclosed "self::" := .of_isWord (by decide)
  have hpath : Enclosed ((p.outline folding).render .self) :=
    (Path.balanced_render (h p hp) folding .self).mono fun _ _ => trivial
  have hcall := Solid.call "not" (by decide) (hself.append hpath)
  simpa [Outline.renderAvoided, Solid, Enclosed] using hcall.enclosed

end SelectorPath.XPath
