/-
Clauses as they are parsed, apart from what is made of them.

Compiling reads a segment and translates it before it reads the next one. Here
the two are told apart, so that a compiled clause can be compared with the
segments that stand in its text.

* `Error.mapM_eq_ok`, `Error.Only`: lists of results, and results whose errors are all
  of one kind.
* `Clause.segments`, `Clause.parse`: the segments of a clause in order, with
  the axis of the first one and the property.
* `Segment.written`: the text of the step that a segment is translated to.
* `Clause.outline_of_toPath`: the written steps of a clause are the translated
  segments, each on the axis that the combinator before it says.
* `Selector.compile_eq`: a selector is compiled clause by clause.
-/
import Mathlib.Data.List.DropRight
import Mathlib.Data.List.Forall2
import Mathlib.Tactic.Common
import SelectorPath.Selector.Compiled

namespace SelectorPath

open XPath

/-! ### Trimming once is enough -/

lemma Text.trimStart_trim (text : List Char) : trimStart (trim text) = trim text := by
  refine List.dropWhile_eq_self_iff.mpr fun hpos => ?_
  have hpre : trim text <+: trimStart text := trimEnd_prefixed _
  have hpos' : 0 < (trimStart text).length := Nat.lt_of_lt_of_le hpos hpre.length_le
  rw [hpre.getElem hpos]
  exact List.dropWhile_get_zero_not isSpace text hpos'

/-- A trimmed text has no white space on either side. -/
theorem Text.trim_trim (text : List Char) : trim (trim text) = trim text := by
  rw [trim, trimStart_trim]
  exact List.rdropWhile_idempotent isSpace (trimStart text)

/-! ### Results, and lists of them -/

lemma Error.pure_eq_ok {ε α : Type} {a b : α} : (pure a : Except ε α) = .ok b ↔ a = b :=
  ⟨Except.ok.inj, congrArg Except.ok⟩

/-- Mapping a result with an injective function loses nothing. -/
lemma Error.map_eq_ok_iff {ε α β : Type} {g : α → β} (hg : Function.Injective g)
    {x : Except ε α} {a : α} : g <$> x = .ok (g a) ↔ x = .ok a := by
  cases x <;> simp [Functor.map, Except.map, hg.eq_iff]

lemma Error.map_eq_error_iff {ε α β : Type} {g : α → β} {x : Except ε α} {e : ε} :
    g <$> x = .error e ↔ x = .error e := by
  cases x <;> simp [Functor.map, Except.map]

/-- All elements of a list are mapped exactly when each of them is. -/
lemma Error.mapM_eq_ok {ε α β : Type} {f : α → Except ε β} {xs : List α} {ys : List β} :
    xs.mapM f = .ok ys ↔ List.Forall₂ (fun x y => f x = .ok y) xs ys := by
  induction xs generalizing ys with
  | nil => rw [List.mapM_nil, pure_eq_ok, List.forall₂_nil_left_iff, eq_comm]
  | cons x xs ih =>
      rw [List.mapM_cons, bind_eq_ok, List.forall₂_cons_left_iff]
      constructor
      · rintro ⟨y, hy, h⟩
        obtain ⟨ys', hys, h⟩ := bind_eq_ok.mp h
        exact ⟨y, ys', hy, ih.mp hys, (Except.ok.inj h).symm⟩
      · rintro ⟨y, ys', hy, hys, rfl⟩
        exact ⟨y, hy, bind_eq_ok.mpr ⟨ys', ih.mpr hys, rfl⟩⟩

/-- Every result comes from an element of the list. -/
lemma Error.exists_of_mem_mapM {ε α β : Type} {f : α → Except ε β} {xs : List α} {ys : List β}
    (h : xs.mapM f = .ok ys) {y : β} (hy : y ∈ ys) : ∃ x ∈ xs, f x = .ok y := by
  rw [mapM_eq_ok] at h
  induction h with
  | nil => exact absurd hy List.not_mem_nil
  | @cons x y' xs ys' hx _ ih =>
      rcases List.mem_cons.mp hy with rfl | hy
      · exact ⟨x, List.mem_cons_self, hx⟩
      · obtain ⟨x', hmem, hx'⟩ := ih hy
        exact ⟨x', List.mem_cons_of_mem x hmem, hx'⟩

/-- A list is mapped if each of its elements is. -/
lemma Error.exists_mapM_iff {ε α β : Type} {g : α → Except ε β} {xs : List α} :
    (∃ ys, xs.mapM g = .ok ys) ↔ ∀ x ∈ xs, ∃ y, g x = .ok y := by
  simp only [mapM_eq_ok]
  induction xs with
  | nil => simp
  | cons x xs ih =>
      rw [List.forall_mem_cons, ← ih]
      simp only [List.forall₂_cons_left_iff]
      constructor
      · rintro ⟨-, y, ys, hy, hys, rfl⟩
        exact ⟨⟨y, hy⟩, ys, hys⟩
      · rintro ⟨⟨y, hy⟩, ys, hys⟩
        exact ⟨y :: ys, y, ys, hy, hys, rfl⟩

/-- If a list is not mapped, it is for one of its elements. -/
lemma Error.exists_of_mapM_eq_error {ε α β : Type} {g : α → Except ε β} {xs : List α} {e : ε}
    (h : xs.mapM g = .error e) : ∃ x ∈ xs, g x = .error e := by
  induction xs with
  | nil => cases h
  | cons x xs ih =>
      rw [List.mapM_cons] at h
      cases hx : g x with
      | error e' =>
          rw [hx] at h
          cases h
          exact ⟨x, List.mem_cons_self, hx⟩
      | ok y =>
          cases hxs : xs.mapM g with
          | error e' =>
              rw [hx, hxs] at h
              cases h
              obtain ⟨x', hmem, hx'⟩ := ih hxs
              exact ⟨x', List.mem_cons_of_mem x hmem, hx'⟩
          | ok ys =>
              rw [hx, hxs] at h
              cases h

/-! ### Errors of one kind -/

namespace Error

/-- If there is no result, it is for an error of this kind. There is one rule for each
way to put results together. -/
def Only {ε α : Type} (P : ε → Prop) (x : Except ε α) : Prop := ∀ e, x = .error e → P e

namespace Only

variable {ε α β : Type} {P : ε → Prop}

/-- A result is no error. -/
lemma ok (a : α) : Only P (.ok a) := nofun

lemma error {e : ε} (h : P e) : Only P (.error e : Except ε α) := by
  rintro _ ⟨⟩
  exact h

/-- A kind of errors can be widened. -/
lemma imp {Q : ε → Prop} {x : Except ε α} (hx : Only P x) (h : ∀ e, P e → Q e) : Only Q x :=
  fun e he => h e (hx e he)

/-- Of two steps each is to fail for errors of this kind, the second for the results of
the first. -/
lemma bind {x : Except ε α} {f : α → Except ε β} (hx : Only P x)
    (hf : ∀ a, x = .ok a → Only P (f a)) : Only P (x >>= f) := by
  cases x with
  | ok a => exact hf a rfl
  | error e => exact error (hx e rfl)

lemma map {x : Except ε α} (hx : Only P x) (f : α → β) : Only P (x.map f) := by
  cases x with
  | ok a => exact ok _
  | error e => exact error (hx e rfl)

/-- A list fails as one of its elements. -/
lemma mapM {f : α → Except ε β} {xs : List α} (h : ∀ x ∈ xs, Only P (f x)) :
    Only P (xs.mapM f) := by
  intro e he
  obtain ⟨x, hx, hfail⟩ := exists_of_mapM_eq_error he
  exact h x hx e hfail

/-- The causes are of one kind, and what they are laid to makes of them errors of
another. -/
lemma blame {P : Cause → Prop} {Q : Error → Prop} {source : String} {x : Except Cause α}
    (hx : Only P x) (h : ∀ cause, P cause → Q (.malformed source cause)) :
    Only Q (Error.blame source x) := by
  cases x with
  | ok a => exact ok a
  | error cause => exact error (h cause (hx cause rfl))

end Only

end Error

/-! ### Segments -/

lemma Pseudo.argument_of_requiredArgument {pseudo : Pseudo} {a : String}
    (h : pseudo.requiredArgument = .ok a) : pseudo.argument = some a := by
  rw [requiredArgument] at h
  split at h
  · simp at h
  · next heq =>
      split_ifs at h
      rw [heq, Except.ok.inj h]

namespace Segment

/-- The text of the step that a segment is translated to, without its axis.
Errors are laid to `source`. -/
def written (folding : Folding) (source : String) (s : Segment) : Except Error String :=
  (s.toStep Selector.paths source .descendant).map (Step.body folding)

/-- A step is on the axis that it was made for, which changes nothing else. -/
lemma toStep_axis {nested : Nested} {source : String} {axis : Axis} {s : Segment} {step : Step}
    (h : s.toStep nested source axis = .ok step) (axis' : Axis) :
    step.axis = axis ∧ s.toStep nested source axis' = .ok { step with axis := axis' } := by
  rw [toStep] at h ⊢
  split
  · next pseudo hpseudo =>
      rw [hpseudo] at h
      obtain ⟨⟨test, predicate⟩, hknown, hret⟩ := Error.bind_eq_ok.mp h
      obtain rfl := Error.pure_eq_ok.mp hret
      exact ⟨rfl, Error.bind_eq_ok.mpr ⟨_, hknown, rfl⟩⟩
  · next hnone =>
      rw [hnone] at h
      dsimp only at h
      split_ifs at h ⊢
      obtain rfl := by simpa using h
      exact ⟨rfl, rfl⟩

/-- The text of a step does not depend on its axis. -/
lemma written_of_toStep {source : String} {axis : Axis} {s : Segment} {step : Step}
    (h : s.toStep Selector.paths source axis = .ok step) (folding : Folding) :
    s.written folding source = .ok (step.body folding) := by
  rw [written, (toStep_axis h .descendant).2]
  cases step
  simp [Except.map, Step.body]

end Segment

namespace Clause

/-- The segments of a chain, one after the other. -/
def segments (chain : List Char) : Except Cause (List Segment) :=
  if chain.isEmpty then .ok []
  else
    match _h : Segment.read chain with
    | .error cause => .error cause
    | .ok (segment, rest) => do
      let more ← segments rest
      return segment :: more
termination_by chain.length
decreasing_by exact Segment.length_of_read _h

/-- The parts of a clause. -/
structure Parsed where
  /-- The axis of the first step. -/
  axis : Axis
  /-- The segments, in order. -/
  segments : List Segment
  /-- The property at the end. -/
  property : Option Property

/-- The axis of every step, and the one that the last combinator asks for. -/
def Parsed.axes (p : Parsed) : List Axis := p.axis :: p.segments.map (·.combinator.axis)

/-- The path of a clause, given what its segments are translated to. -/
def Parsed.outline (p : Parsed) (texts : List String) : Outline :=
  ⟨p.axes.zip texts, p.property.map Property.render⟩

/-- The parts of a clause, none of them translated. -/
def parse (clause : List Char) : Except Cause Parsed := do
  let (chain, property) ← splitProperty (Text.trim clause)
  let segments ← segments (splitAxis chain).2
  return ⟨(splitAxis chain).1, segments, property⟩

/-- One segment after the other, as in compiling. -/
lemma segments_of_read {chain rest : List Char} {segment : Segment} (hne : chain ≠ [])
    (h : Segment.read chain = .ok (segment, rest)) :
    segments chain = (do return segment :: (← segments rest)) := by
  rw [segments, if_neg (by simpa using hne)]
  split
  · simp_all
  · next h' =>
      obtain ⟨rfl, rfl⟩ : _ ∧ _ := by simpa [h] using h'
      rfl

lemma segments_ne_nil {chain : List Char} {segs : List Segment} (hne : chain ≠ [])
    (h : segments chain = .ok segs) : segs ≠ [] := by
  cases hread : Segment.read chain with
  | error cause =>
      rw [segments, if_neg (by simpa using hne)] at h
      split at h <;> simp_all
  | ok r =>
      obtain ⟨segment, rest⟩ := r
      rw [segments_of_read hne hread] at h
      obtain ⟨more, -, hret⟩ := Error.bind_eq_ok.mp h
      obtain rfl := Error.pure_eq_ok.mp hret
      exact List.cons_ne_nil segment more

/-- The steps of a chain are its translated segments. -/
theorem bodies_of_steps {source : String} {axis : Axis} {chain : List Char} {ss : List Step}
    (h : steps Selector.paths source axis chain = .ok ss) (folding : Folding) :
    ∃ segs texts, segments chain = .ok segs ∧
      segs.mapM (Segment.written folding source) = .ok texts ∧
        Step.bodies folding ss = (axis :: segs.map (·.combinator.axis)).zip texts := by
  fun_induction steps Selector.paths source axis chain generalizing ss with
  | case1 => simp at h
  | case2 axis chain hempty =>
      obtain rfl := by simpa using h
      refine ⟨[], [], ?_, rfl, rfl⟩
      rw [segments, if_pos hempty]
  | case3 => simp at h
  | case4 axis chain hne segment rest hread ih =>
      obtain ⟨step, hstep, h⟩ := Error.bind_eq_ok.mp h
      obtain ⟨more, hmore, h⟩ := Error.bind_eq_ok.mp h
      obtain rfl := Error.pure_eq_ok.mp h
      obtain ⟨segs, texts, hsegs, htexts, hbodies⟩ := ih hmore
      refine ⟨segment :: segs, step.body folding :: texts, ?_, ?_, ?_⟩
      · rw [segments_of_read (by simpa using hne) hread, hsegs]
        rfl
      · rw [List.mapM_cons, Segment.written_of_toStep hstep, htexts]
        rfl
      · rw [Step.bodies, hbodies, (Segment.toStep_axis hstep axis).1]
        rfl

/-- The path of a clause is made of its parts, each of them translated on its
own. There is at least one segment. -/
theorem outline_of_toPath {clause : List Char} {path : Path}
    (h : toPath Selector.paths clause = .ok path) (folding : Folding) :
    ∃ parsed texts, parse clause = .ok parsed ∧ parsed.segments ≠ [] ∧
      parsed.segments.mapM (Segment.written folding (String.ofList (Text.trim clause))) =
          .ok texts ∧
        path.outline folding = parsed.outline texts := by
  rw [toPath] at h
  split_ifs at h
  rw [pathOfTrimmed] at h
  obtain ⟨⟨chain, property⟩, hsplit, h⟩ := Error.bind_eq_ok.mp h
  have hsplit := Error.blame_eq_ok.mp hsplit
  dsimp only at h
  split_ifs at h with hchain
  obtain ⟨ss, hsteps, h⟩ := Error.bind_eq_ok.mp h
  obtain rfl := Error.pure_eq_ok.mp h
  obtain ⟨segs, texts, hsegs, htexts, hbodies⟩ := bodies_of_steps hsteps folding
  refine ⟨⟨(splitAxis chain).1, segs, property⟩, texts, ?_, ?_, htexts, ?_⟩
  · exact Error.bind_eq_ok.mpr ⟨_, hsplit, Error.bind_eq_ok.mpr ⟨segs, hsegs, rfl⟩⟩
  · exact segments_ne_nil (by simpa using hchain) hsegs
  · rw [Path.outline, hbodies]
    rfl

end Clause

/-! ### Unions -/

namespace Selector

/-- There is a clause in every selector, and its clauses are trimmed. -/
lemma of_splitClauses {selector : String} {clauses : List String}
    (h : splitClauses selector = .ok clauses) :
    clauses ≠ [] ∧ ∀ c ∈ clauses, Text.trim c.toList = c.toList := by
  rw [splitClauses, Clause.splitUnion] at h
  cases hsplit : Text.splitTopLevel ',' selector.toList with
  | none => simp [hsplit, Except.map] at h
  | some parts =>
      obtain ⟨found, -, hparts⟩ := Option.map_eq_some_iff.mp hsplit
      rw [hsplit] at h
      dsimp only at h
      split_ifs at h
      · simp [Except.map] at h
      · obtain rfl : (parts.map Text.trim).map String.ofList = clauses := Except.ok.inj h
        refine ⟨by simp [← hparts], fun c hc => ?_⟩
        rw [List.map_map, List.mem_map] at hc
        obtain ⟨part, -, rfl⟩ := hc
        rw [Function.comp_apply, String.toList_ofList, Text.trim_trim]

/-- A clause compiles to its path, rendered from the document. -/
lemma compileClause_ofList (folding : Folding) (clause : List Char) :
    compileClause folding (String.ofList clause) =
      (Clause.toPath paths clause).map (Path.render folding .document) := by
  rw [compileClause, clausePath, String.toList_ofList]

/-- Mapping the clauses to paths and writing these is compiling each clause. -/
lemma mapM_compileClause (folding : Folding) (clauses : List (List Char)) :
    (clauses.map String.ofList).mapM (compileClause folding) =
      (clauses.mapM (Clause.toPath paths)).map (·.map (Path.render folding .document)) := by
  induction clauses with
  | nil => rfl
  | cons clause clauses ih =>
      rw [List.map_cons, List.mapM_cons, List.mapM_cons, ih, compileClause_ofList]
      cases Clause.toPath paths clause with
      | error e => rfl
      | ok path =>
          cases clauses.mapM (Clause.toPath paths) with
          | error e => rfl
          | ok more => rfl

/-- A selector is compiled clause by clause, up to the first that fails. -/
theorem compile_eq (folding : Folding) (selector : String) :
    compile folding selector = (do
      let clauses ← splitClauses selector
      let xpaths ← clauses.mapM (compileClause folding)
      return ⟨xpaths⟩) := by
  rw [compile, compileFrom, paths_eq, Clause.unionPaths, splitClauses]
  cases Clause.splitUnion selector.toList with
  | error e => rfl
  | ok clauses =>
      change _ = (do
        let xpaths ← (clauses.map String.ofList).mapM (compileClause folding)
        return Compiled.mk xpaths)
      rw [mapM_compileClause]
      change ((clauses.mapM (Clause.toPath paths)).map _).map _ = _
      cases clauses.mapM (Clause.toPath paths) with
      | error e => rfl
      | ok ps => rfl

end Selector

end SelectorPath
