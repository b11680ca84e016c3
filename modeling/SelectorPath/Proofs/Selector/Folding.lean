/-
Where the folding matters: at `:contains` without regard to case, and nowhere else.

* `Selector.pseudos`: the pseudo-classes in a selector, those in the arguments of
  `:has` and `:not` included.
* `Pseudo.ignoresCase`: `:contains` without `true` behind its text.
* `Pseudo.FoldsCase`, `Clause.FoldsCase`: there is such a pseudo-class in it.
* `Segment.varies_of_toStep`, `Clause.varies_of_toPath`, `Selector.told`: what is
  written for a segment, a clause and a selector varies with the folding exactly if
  there is; by induction over the length of the text.
* `Selector.folding_concerns_contains`: the main statement.
-/
import SelectorPath.Proofs.Selector.Parsed
import SelectorPath.Proofs.XPath.Folding

namespace SelectorPath

open XPath

/-! ### The pseudo-classes in a selector -/

/-- `:contains` without regard to case: the second part of the argument is missing,
or it is not `true`. -/
def Pseudo.ignoresCase (p : Pseudo) : Bool :=
  p.name == "contains" &&
    ((p.argument.bind fun argument => Text.splitTopLevel ',' argument.toList).bind
      (·[1]?)).map Text.trim != some "true".toList

/-- The selector inside `:has` or `:not`. -/
def Pseudo.inner? (p : Pseudo) : Option (List Char) :=
  if p.name = "has" ∨ p.name = "not" then p.argument.map String.toList else none

/-- The pseudo-classes of the segments of a clause. -/
def Clause.pseudos (clause : List Char) : List Pseudo :=
  match parse clause with
  | .error _ => []
  | .ok parsed => parsed.segments.filterMap Segment.pseudo

/-- The pseudo-classes of the segments of all clauses. -/
def Selector.outerPseudos (selector : List Char) : List Pseudo :=
  match Clause.splitUnion selector with
  | .error _ => []
  | .ok clauses => clauses.flatMap Clause.pseudos

/-- The pseudo-classes in a selector, at any depth. -/
def Selector.pseudos (selector : List Char) : List Pseudo :=
  (outerPseudos selector).flatMap fun p => p ::
    match p.inner? with
    | none => []
    | some inner => if inner.length < selector.length then pseudos inner else []
termination_by selector.length

namespace Clause

/-- The pseudo-classes of a clause are those of its segments. -/
lemma pseudos_of_parse {clause : List Char} {parsed : Parsed} (h : parse clause = .ok parsed) :
    pseudos clause = parsed.segments.filterMap Segment.pseudo := by
  rw [pseudos, h]

/-- An argument is shorter than the chain it stands in. -/
lemma length_argument_of_segments {chain : List Char} {segs : List Segment}
    (h : segments chain = .ok segs) {segment : Segment} (hmem : segment ∈ segs) {argument : String}
    (hargument : segment.pseudo.bind Pseudo.argument = some argument) :
    argument.toList.length < chain.length := by
  fun_induction segments chain generalizing segs with
  | case1 =>
      obtain rfl := by simpa using h
      cases hmem
  | case2 => cases h
  | case3 chain _ first rest hread ih =>
      obtain ⟨more, hmore, hret⟩ := Error.bind_eq_ok.mp h
      obtain rfl := Error.pure_eq_ok.mp hret
      rcases List.mem_cons.mp hmem with rfl | hmem
      · exact Segment.length_argument_of_read hread hargument
      · exact Nat.lt_trans (ih hmore hmem) (Segment.length_of_read hread)

/-- The argument of a pseudo-class is shorter than the clause it stands in. -/
lemma length_inner_lt {clause inner : List Char} {p : Pseudo} (hmem : p ∈ pseudos clause)
    (hinner : p.inner? = some inner) : inner.length < clause.length := by
  cases hparse : parse clause with
  | error cause =>
      rw [pseudos, hparse] at hmem
      cases hmem
  | ok parsed =>
      rw [pseudos_of_parse hparse] at hmem
      obtain ⟨segment, hsegment, hpseudo⟩ := List.mem_filterMap.mp hmem
      obtain ⟨⟨chain, property⟩, hsplit, h⟩ := Error.bind_eq_ok.mp hparse
      obtain ⟨segs, hsegs, hret⟩ := Error.bind_eq_ok.mp h
      obtain rfl := Error.pure_eq_ok.mp hret
      rw [Pseudo.inner?] at hinner
      split_ifs at hinner
      obtain ⟨argument, hargument, rfl⟩ := Option.map_eq_some_iff.mp hinner
      have hlt := length_argument_of_segments hsegs hsegment
        (by rw [hpseudo, Option.bind_some, hargument])
      have hchain := length_splitProperty_le hsplit
      have haxis := length_splitAxis_le chain
      have htrim := Text.length_trim_le clause
      omega

end Clause

namespace Selector

/-- The outer pseudo-classes of a selector are those of its clauses. -/
lemma outerPseudos_of_splitUnion {selector : List Char} {clauses : List (List Char)}
    (h : Clause.splitUnion selector = .ok clauses) :
    outerPseudos selector = clauses.flatMap Clause.pseudos := by
  rw [outerPseudos, h]

lemma length_inner_lt {selector inner : List Char} {p : Pseudo} (hmem : p ∈ outerPseudos selector)
    (hinner : p.inner? = some inner) : inner.length < selector.length := by
  cases hsplit : Clause.splitUnion selector with
  | error e =>
      rw [outerPseudos, hsplit] at hmem
      cases hmem
  | ok clauses =>
      rw [outerPseudos_of_splitUnion hsplit] at hmem
      obtain ⟨clause, hclause, hp⟩ := List.mem_flatMap.mp hmem
      exact Nat.lt_of_lt_of_le (Clause.length_inner_lt hp hinner)
        (Clause.length_le_of_mem_splitUnion hsplit clause hclause)

end Selector

/-- There is a pseudo-class that ignores case, this one or one in its argument. -/
def Pseudo.FoldsCase (p : Pseudo) : Prop :=
  p.ignoresCase ∨ ∃ inner, p.inner? = some inner ∧ ∃ q ∈ Selector.pseudos inner, q.ignoresCase

namespace Pseudo

variable {p : Pseudo}

/-- Of `:contains`, the second argument decides. -/
lemma foldsCase_iff_of_contains (h : p.name = "contains") : p.FoldsCase ↔ p.ignoresCase := by
  have hinner : p.inner? = none := by simp [inner?, h]
  simp [FoldsCase, hinner]

/-- In `:has` and `:not` it is the argument that matters. -/
lemma foldsCase_iff_of_inner? {inner : List Char} (h : p.inner? = some inner) :
    p.FoldsCase ↔ ∃ q ∈ Selector.pseudos inner, q.ignoresCase := by
  have hname : p.ignoresCase = false := by
    rw [inner?] at h
    split_ifs at h with hname
    rcases hname with hname | hname <;> simp [ignoresCase, hname]
  simp [FoldsCase, hname, h]

/-- A pseudo-class that has no text and no selector in it has no case to fold. -/
lemma not_foldsCase (h : p.name ∉ ["contains", "has", "not"]) : ¬p.FoldsCase := by
  simp only [List.mem_cons, List.not_mem_nil, or_false, not_or] at h
  simp [FoldsCase, ignoresCase, inner?, h]

lemma inner?_of_requiredArgument {argument : String} (hname : p.name = "has" ∨ p.name = "not")
    (h : p.requiredArgument = .ok argument) : p.inner? = some argument.toList := by
  rw [inner?, if_pos hname, argument_of_requiredArgument h, Option.map_some]

end Pseudo

/-- There is a pseudo-class in the clause that ignores case. -/
def Clause.FoldsCase (clause : List Char) : Prop := ∃ p ∈ pseudos clause, p.FoldsCase

namespace Selector

/-- The pseudo-classes in a selector are those of its segments, and those in the
arguments of these. -/
theorem mem_pseudos_iff {selector : List Char} {q : Pseudo} :
    q ∈ pseudos selector ↔ ∃ p ∈ outerPseudos selector,
      q = p ∨ ∃ inner, p.inner? = some inner ∧ q ∈ pseudos inner := by
  rw [pseudos, List.mem_flatMap]
  refine exists_congr fun p => and_congr_right fun hp => ?_
  rw [List.mem_cons]
  refine or_congr_right ?_
  cases hinner : p.inner? with
  | none => simp
  | some inner => simp [length_inner_lt hp hinner]

/-- There is a pseudo-class that ignores case exactly if there is one in a clause. -/
lemma exists_ignoresCase_iff {selector : List Char} {clauses : List (List Char)}
    (h : Clause.splitUnion selector = .ok clauses) :
    (∃ q ∈ pseudos selector, q.ignoresCase) ↔ ∃ clause ∈ clauses, Clause.FoldsCase clause := by
  constructor
  · rintro ⟨q, hq, hignores⟩
    obtain ⟨p, hp, hor⟩ := mem_pseudos_iff.mp hq
    rw [outerPseudos_of_splitUnion h] at hp
    obtain ⟨clause, hclause, hp⟩ := List.mem_flatMap.mp hp
    refine ⟨clause, hclause, p, hp, ?_⟩
    rcases hor with rfl | ⟨inner, hinner, hq⟩
    · exact .inl hignores
    · exact .inr ⟨inner, hinner, q, hq, hignores⟩
  · rintro ⟨clause, hclause, p, hp, hfolds⟩
    have houter : p ∈ outerPseudos selector := by
      rw [outerPseudos_of_splitUnion h]
      exact List.mem_flatMap.mpr ⟨clause, hclause, hp⟩
    rcases hfolds with hignores | ⟨inner, hinner, q, hq, hignores⟩
    · exact ⟨p, mem_pseudos_iff.mpr ⟨p, houter, .inl rfl⟩, hignores⟩
    · exact ⟨q, mem_pseudos_iff.mpr ⟨p, houter, .inr ⟨inner, hinner, hq⟩⟩, hignores⟩

end Selector

/-! ### Conditions that do not vary -/

/-- A search for a token is exact. -/
lemma steady_tokenCondition (name token : String) : (tokenCondition name token).Steady := rfl

/-- No test of an attribute depends on how case is folded. -/
lemma AttributeTest.steady_condition (test : AttributeTest) : test.condition.Steady := by
  rw [condition]
  cases test.op with
  | plain | namePrefix =>
      dsimp only
      split_ifs <;> rfl
  | _ => rfl

namespace Segment

/-- Neither does any part of a segment but its pseudo-class. -/
lemma steady_conditions (s : Segment) : ∀ c ∈ s.conditions, c.Steady := by
  intro c hc
  simp only [conditions, List.mem_append, List.mem_map] at hc
  rcases hc with (⟨id, -, rfl⟩ | ⟨token, -, rfl⟩) | ⟨test, -, rfl⟩
  · rfl
  · exact steady_tokenCondition "class" token
  · exact test.steady_condition

/-- Positions have no case. -/
lemma steady_of_positionCondition {p : Pseudo} {c : Condition}
    (h : p.positionCondition = .ok c) : c.Steady := by
  obtain ⟨argument, -, h⟩ := Error.bind_eq_ok.mp h
  split at h
  · next positions _ =>
      obtain rfl := by simpa using h
      cases positions with
      | every step offset =>
          rw [Positions.condition]
          split_ifs <;> rfl
      | _ => rfl
  · cases h

lemma steady_siblingCondition (test : NodeTest) {position : Condition} (h : position.Steady) :
    (siblingCondition test position).Steady := by
  cases test with
  | any => exact h
  | named name =>
      -- the equations of `render` are slow to derive
      have hrender : ∀ folding, (siblingCondition (.named name) position).render folding =
          "(" ++ Equality.render ⟨.close, .nodeName, .literal name⟩ ++ ")" ++ " and " ++
            ("(" ++ position.render folding ++ ")") := fun _ => rfl
      rw [Condition.Steady, hrender, hrender, h]

end Segment

/-! ### Pseudo-classes and segments -/

lemma PseudoClass.name_of_ofName? {name : String} {known : PseudoClass}
    (h : ofName? name = some known) : known.name = name := by
  simpa using List.find?_some h

/-- `:contains` asks for a condition that varies exactly if it ignores case. -/
lemma Pseudo.varies_of_containsCondition {p : Pseudo} (hname : p.name = "contains") {c : Condition}
    (h : p.containsCondition = .ok c) :
    Varies p.ignoresCase (c.render .lowerCase) (c.render .ascii) := by
  obtain ⟨argument, hargument, h⟩ := Error.bind_eq_ok.mp h
  have harg : p.argument = some argument := argument_of_requiredArgument hargument
  cases hcut : Text.cutTopLevel ',' argument.toList with
  | none => simp [hcut] at h
  | some pieces =>
      obtain ⟨first, more⟩ := pieces
      have hignores : p.ignoresCase ↔
          more.head?.map Text.trim ≠ some ['t', 'r', 'u', 'e'] := by
        simp [ignoresCase, hname, harg, Text.splitTopLevel, hcut, List.head?_eq_getElem?]
      rw [hcut] at h
      dsimp only at h
      split_ifs at h with htrue
      · obtain rfl := Except.ok.inj h
        exact (Varies.of_eq rfl).congr (by simp [hignores, htrue])
      · obtain rfl := Except.ok.inj h
        exact (Condition.varies_caseless _).congr (by simp [hignores, htrue])

/-- What is written for the clauses of a selector varies with the folding exactly if
there is a pseudo-class in them that ignores case. -/
def Selector.Told (selector : List Char) : Prop :=
  ∀ ps, paths selector = .ok ps → ∃ clauses, Clause.splitUnion selector = .ok clauses ∧
    List.Forall₂ (fun clause (p : Path) => ∀ anchor, Varies (Clause.FoldsCase clause)
      (p.render .lowerCase anchor) (p.render .ascii anchor)) clauses ps

/-- Inside `:has` or `:not` this tells what the pseudo-class comes to. -/
lemma Selector.Told.foldsCase {inner : List Char} (h : Told inner) {p : Pseudo}
    (hinner : p.inner? = some inner) {ps : List Path} (hpaths : paths inner = .ok ps) :
    ∃ clauses, (p.FoldsCase ↔ ∃ clause ∈ clauses, Clause.FoldsCase clause) ∧
      List.Forall₂ (fun clause (p : Path) => ∀ anchor, Varies (Clause.FoldsCase clause)
        (p.render .lowerCase anchor) (p.render .ascii anchor)) clauses ps := by
  obtain ⟨clauses, hsplit, hvaries⟩ := h ps hpaths
  refine ⟨clauses, ?_, hvaries⟩
  rw [Pseudo.foldsCase_iff_of_inner? hinner, exists_ignoresCase_iff hsplit]

namespace Segment

variable {source : String}

/-- What a known pseudo-class asks varies exactly if it folds case. -/
lemma varies_of_knownTest {test test' : NodeTest} {pseudo : Pseudo} {known : PseudoClass}
    {predicate : Predicate} (hname : known.name = pseudo.name)
    (htold : ∀ inner, pseudo.inner? = some inner → Selector.Told inner)
    (h : knownTest Selector.paths source test pseudo known = .ok (test', predicate)) :
    Varies pseudo.FoldsCase (predicate.render .lowerCase) (predicate.render .ascii) := by
  -- all tests but three are written alike with either option, and fold no case
  have hsteady : ∀ c : Condition, c.Steady → known.name ∉ ["contains", "has", "not"] →
      Varies pseudo.FoldsCase ((Predicate.holds c).render .lowerCase)
        ((Predicate.holds c).render .ascii) := by
    intro c hc hother
    rw [hname] at hother
    rw [Predicate.render, Predicate.render]
    exact (Varies.of_eq hc).congr (iff_of_false not_false (Pseudo.not_foldsCase hother))
  cases known with
  | firstChild | lastChild | empty | notEmpty =>
      obtain ⟨rfl, rfl⟩ := by simpa [knownTest] using h
      exact hsteady _ rfl (by decide)
  | nthChild =>
      obtain ⟨position, hposition, h⟩ := Error.bind_eq_ok.mp h
      obtain ⟨rfl, rfl⟩ := Prod.mk.inj (Error.pure_eq_ok.mp h)
      have hposition := steady_of_positionCondition (Error.blame_eq_ok.mp hposition)
      exact hsteady _ (steady_siblingCondition test hposition) (by decide)
  | nthOfType =>
      obtain ⟨position, hposition, h⟩ := Error.bind_eq_ok.mp h
      obtain ⟨rfl, rfl⟩ := Prod.mk.inj (Error.pure_eq_ok.mp h)
      exact hsteady _ (steady_of_positionCondition (Error.blame_eq_ok.mp hposition)) (by decide)
  | contains =>
      obtain ⟨condition, hcondition, h⟩ := Error.bind_eq_ok.mp h
      obtain ⟨rfl, rfl⟩ := Prod.mk.inj (Error.pure_eq_ok.mp h)
      rw [Predicate.render, Predicate.render, Pseudo.foldsCase_iff_of_contains hname.symm]
      exact Pseudo.varies_of_containsCondition hname.symm (Error.blame_eq_ok.mp hcondition)
  | has =>
      obtain ⟨inner, hinner, h⟩ := Error.bind_eq_ok.mp h
      obtain ⟨paths, hpaths, h⟩ := Error.bind_eq_ok.mp h
      obtain ⟨rfl, rfl⟩ := Prod.mk.inj (Error.pure_eq_ok.mp h)
      have hinner := Pseudo.inner?_of_requiredArgument (.inl hname.symm)
        (Error.blame_eq_ok.mp hinner)
      -- the inner selector is shorter, and there it is known already what the option changes
      obtain ⟨clauses, hfolds, hvaries⟩ := (htold _ hinner).foldsCase hinner hpaths
      exact (Predicate.varies_reaches hvaries).congr hfolds.symm
  | not =>
      obtain ⟨inner, hinner, h⟩ := Error.bind_eq_ok.mp h
      obtain ⟨paths, hpaths, h⟩ := Error.bind_eq_ok.mp h
      obtain ⟨rfl, rfl⟩ := Prod.mk.inj (Error.pure_eq_ok.mp h)
      have hinner := Pseudo.inner?_of_requiredArgument (.inr hname.symm)
        (Error.blame_eq_ok.mp hinner)
      obtain ⟨clauses, hfolds, hvaries⟩ := (htold _ hinner).foldsCase hinner hpaths
      exact (Predicate.varies_avoids hvaries).congr hfolds.symm

/-- The step of a segment varies exactly if its pseudo-class folds case. -/
lemma varies_of_toStep {axis : Axis} {s : Segment} {step : Step}
    (htold : ∀ p, s.pseudo = some p → ∀ inner, p.inner? = some inner → Selector.Told inner)
    (h : s.toStep Selector.paths source axis = .ok step) :
    Varies (∃ p, s.pseudo = some p ∧ p.FoldsCase) (step.body .lowerCase) (step.body .ascii) := by
  rw [toStep] at h
  split at h
  · next pseudo hpseudo =>
      obtain ⟨⟨test, predicate⟩, htest, h⟩ := Error.bind_eq_ok.mp h
      obtain rfl := Error.pure_eq_ok.mp h
      rw [pseudoTest] at htest
      split at htest
      · next known hknown =>
          have hpredicate := varies_of_knownTest (PseudoClass.name_of_ofName? hknown)
            (htold pseudo hpseudo) htest
          refine (Step.varies_body s.steady_conditions hpredicate axis test).congr ?_
          simp [hpseudo]
      · cases htest
  · next hpseudo =>
      -- without a pseudo-class the conditions are all there is, and they are steady
      split_ifs at h
      obtain rfl := Except.ok.inj h
      have hconditions : s.conditions.map (Predicate.render .lowerCase ∘ .holds) =
          s.conditions.map (Predicate.render .ascii ∘ .holds) := by
        refine List.map_congr_left fun c hc => ?_
        rw [Function.comp_apply, Function.comp_apply, Predicate.render, Predicate.render]
        exact s.steady_conditions c hc
      refine (Varies.of_eq ?_).congr (by simp [hpseudo])
      rw [Step.body, Step.body, Predicate.renderAll_eq_map, Predicate.renderAll_eq_map,
        List.map_map, List.map_map, hconditions]

end Segment

/-! ### Clauses and selectors -/

namespace Clause

variable {nested : Segment.Nested}

/-- The steps of a chain are those of its segments. -/
lemma forall₂_of_steps {source : String} {axis : Axis} {chain : List Char} {ss : List Step}
    (h : steps nested source axis chain = .ok ss) :
    ∃ segs, segments chain = .ok segs ∧
      List.Forall₂ (fun segment step => ∃ axis, segment.toStep nested source axis = .ok step)
        segs ss := by
  fun_induction steps nested source axis chain generalizing ss with
  | case1 => cases h
  | case2 axis chain hempty =>
      obtain rfl := Except.ok.inj h
      exact ⟨[], by rw [segments, if_pos hempty], .nil⟩
  | case3 => cases h
  | case4 axis chain hne segment rest hread ih =>
      obtain ⟨step, hstep, h⟩ := Error.bind_eq_ok.mp h
      obtain ⟨more, hmore, h⟩ := Error.bind_eq_ok.mp h
      obtain rfl := Error.pure_eq_ok.mp h
      obtain ⟨segs, hsegs, hall⟩ := ih hmore
      refine ⟨segment :: segs, ?_, .cons ⟨axis, hstep⟩ hall⟩
      rw [segments_of_read (by simpa using hne) hread, hsegs]
      rfl

/-- What is written for a clause varies exactly if there is a pseudo-class in it that
ignores case. -/
lemma varies_of_toPath {clause : List Char} {path : Path}
    (htold : ∀ p ∈ pseudos clause, ∀ inner, p.inner? = some inner → Selector.Told inner)
    (h : toPath Selector.paths clause = .ok path) (anchor : Anchor) :
    Varies (FoldsCase clause) (path.render .lowerCase anchor) (path.render .ascii anchor) := by
  rw [toPath] at h
  split_ifs at h
  rw [pathOfTrimmed] at h
  obtain ⟨⟨chain, property⟩, hsplit, h⟩ := Error.bind_eq_ok.mp h
  dsimp only at h
  split_ifs at h
  obtain ⟨ss, hsteps, h⟩ := Error.bind_eq_ok.mp h
  obtain rfl := Error.pure_eq_ok.mp h
  obtain ⟨segs, hsegs, hall⟩ := forall₂_of_steps hsteps
  have hparse : parse clause = .ok ⟨(splitAxis chain).1, segs, property⟩ :=
    Error.bind_eq_ok.mpr ⟨_, Error.blame_eq_ok.mp hsplit, Error.bind_eq_ok.mpr ⟨segs, hsegs, rfl⟩⟩
  have hmem : ∀ p, p ∈ pseudos clause ↔ ∃ segment ∈ segs, segment.pseudo = some p := by
    intro p
    rw [pseudos_of_parse hparse, List.mem_filterMap]
  have hvaries : List.Forall₂ (fun segment (step : Step) =>
      Varies (∃ p, segment.pseudo = some p ∧ p.FoldsCase) (step.body .lowerCase)
        (step.body .ascii)) segs ss := by
    refine ((List.forall₂_and_left _ _).mpr ⟨fun _ hsegment => hsegment, hall⟩).imp ?_
    rintro segment step ⟨hsegment, axis, hstep⟩
    refine Segment.varies_of_toStep (fun p hp => ?_) hstep
    exact htold p ((hmem p).mpr ⟨segment, hsegment, hp⟩)
  refine (Path.varies_render hvaries property anchor).congr ?_
  constructor
  · rintro ⟨segment, hsegment, p, hp, hfolds⟩
    exact ⟨p, (hmem p).mpr ⟨segment, hsegment, hp⟩, hfolds⟩
  · rintro ⟨p, hp, hfolds⟩
    obtain ⟨segment, hsegment, hp⟩ := (hmem p).mp hp
    exact ⟨segment, hsegment, p, hp, hfolds⟩

end Clause

namespace Selector

/-- What is written for a selector varies exactly where there is a pseudo-class that
ignores case, at any depth. -/
theorem told (selector : List Char) : Told selector := by
  -- selectors inside pseudo-classes are shorter
  induction hn : selector.length using Nat.strongRecOn generalizing selector with
  | _ n ih =>
      intro ps hpaths
      rw [paths_eq] at hpaths
      obtain ⟨clauses, hsplit, hmapM⟩ := Error.bind_eq_ok.mp hpaths
      refine ⟨clauses, hsplit, ?_⟩
      have hall := Error.mapM_eq_ok.mp hmapM
      refine ((List.forall₂_and_left _ _).mpr ⟨fun _ hclause => hclause, hall⟩).imp ?_
      rintro clause path ⟨hclause, hpath⟩
      refine Clause.varies_of_toPath (fun p hp inner hinner => ?_) hpath
      have houter : p ∈ outerPseudos selector := by
        rw [outerPseudos_of_splitUnion hsplit]
        exact List.mem_flatMap.mpr ⟨clause, hclause, hp⟩
      exact ih inner.length (hn ▸ length_inner_lt houter hinner) inner rfl

/-- **The folding concerns `:contains` without regard to case, and nothing else.**
Under both foldings a selector fails alike, or it compiles to as many clauses. The
results are the same if no pseudo-class in it, at any depth of `:has` and `:not`,
ignores case. And they are not if one does. -/
theorem folding_concerns_contains (selector : String) :
    ((∃ e, compile .lowerCase selector = .error e ∧ compile .ascii selector = .error e) ∨
      ∃ lower ascii, compile .lowerCase selector = .ok lower ∧
        compile .ascii selector = .ok ascii ∧ lower.clauses.length = ascii.clauses.length) ∧
    ((∀ p ∈ pseudos selector.toList, ¬p.ignoresCase) →
      compile .lowerCase selector = compile .ascii selector) ∧
    ∀ lower, compile .lowerCase selector = .ok lower →
      (∃ p ∈ pseudos selector.toList, p.ignoresCase) → compile .ascii selector ≠ .ok lower := by
  cases hpaths : paths selector.toList with
  | error e =>
      -- neither the paths nor the errors depend on the option
      have hcompile : ∀ folding, compile folding selector = .error e := by
        intro folding
        rw [compile, compileFrom, hpaths]
        rfl
      rw [hcompile, hcompile]
      exact ⟨.inl ⟨e, rfl, rfl⟩, fun _ => rfl, fun lower h => by cases h⟩
  | ok ps =>
      have hcompile : ∀ folding, compile folding selector =
          .ok ⟨ps.map (Path.render folding .document)⟩ := by
        intro folding
        rw [compile, compileFrom, hpaths]
        rfl
      obtain ⟨clauses, hsplit, hvaries⟩ := told selector.toList ps hpaths
      -- the texts differ where a path does, and this is told by the pseudo-classes
      have heq : ps.map (Path.render .lowerCase .document) =
          ps.map (Path.render .ascii .document) ↔ ∀ p ∈ pseudos selector.toList,
            ¬p.ignoresCase := by
        have hnone := (exists_ignoresCase_iff hsplit).not
        simp only [not_exists, not_and] at hnone
        rw [Varies.map_eq_iff (hvaries.imp fun clause p hp => hp .document), hnone]
      rw [hcompile, hcompile]
      refine ⟨.inr ⟨_, _, rfl, rfl, by rw [List.length_map, List.length_map]⟩, fun hnone => ?_, ?_⟩
      · rw [heq.mpr hnone]
      · rintro lower hlower ⟨p, hp, hignores⟩ hascii
        rw [← hlower, Except.ok.injEq, Compiled.mk.injEq, eq_comm, heq] at hascii
        exact hascii p hp hignores

/-- Two levels down, `:contains` is told to heed case, and then it is not, since what
looks like a second argument stands in quotes. -/
theorem folding_concerns_contains_nested :
    let told := "a:not(b:has(c:contains(A, true )))"
    let untold := "a:not(b:has(c:contains('A,true')))"
    (∀ p ∈ pseudos told.toList, ¬p.ignoresCase) ∧ pseudos told.toList ≠ [] ∧
      compile .lowerCase told = compile .ascii told ∧
    (∃ p ∈ pseudos untold.toList, p.ignoresCase) ∧
      ∃ lower, compile .lowerCase untold = .ok lower ∧ compile .ascii untold ≠ .ok lower := by
  intro told untold
  have hnone : ∀ p ∈ pseudos told.toList, ¬p.ignoresCase := by decide +kernel
  have hsome : ∃ p ∈ pseudos untold.toList, p.ignoresCase := by decide +kernel
  obtain ⟨-, hsame, -⟩ := folding_concerns_contains told
  obtain ⟨-, -, hdiffers⟩ := folding_concerns_contains untold
  have hok : (compile .lowerCase untold).isOk := by decide +kernel
  refine ⟨hnone, by decide +kernel, hsame hnone, hsome, ?_⟩
  cases hlower : compile .lowerCase untold with
  | error e => simp [hlower, Except.isOk, Except.toBool] at hok
  | ok lower => exact ⟨lower, rfl, hdiffers lower hlower hsome⟩

end Selector

end SelectorPath
