/-
The anchors of a written path.

A path is written from the root of the document, from the current node, or as
a test of the current node itself. The three forms differ in what stands before
the first step and in nothing else. So the forms that `:has` and `:not` ask for
can be had from the form that a selector is compiled to.

* `Path.render_document`, `Path.render_relative`: the three forms of a path
  compared.
* `unrooted`: a path from the root without its leading slashes, which is the
  test of the current node (`Path.unrooted_render`).
* `Selector.of_mem_paths`: the paths of a selector have a first step to be
  anchored.
* `Selector.anchors_change_lead`: what anchors do to a selector, and to the
  selectors inside `:has` and `:not`.
-/
import SelectorPath.Proofs.Selector.Solid

namespace SelectorPath

open XPath Text

/-! ### The three forms of a path -/

/-- A plain symbol at the front of a balanced text stands outside of all groups
and quotations. -/
lemma Text.Balanced.outside_head {outside : Char → Prop} {text : List Char}
    (h : Balanced outside text) {c : Char} (hc : c ∈ text.head?) (hplain : IsPlain c) :
    outside c := by
  induction h with
  | nil => simp at hc
  | plain _ hout =>
      obtain rfl := Option.some.inj hc
      exact hout
  | quoted q _ =>
      obtain rfl := Option.some.inj hc
      exact absurd hplain (by cases q <;> decide)
  | group b _ _ =>
      obtain rfl := Option.some.inj hc
      exact absurd hplain (by cases b <;> decide)
  | @append _ left right _ _ ihl ihr =>
      cases left with
      | nil => exact ihr hc
      | cons d left => exact ihl hc

namespace XPath

/-- A path from the root of the document without its leading slashes. -/
def unrooted (xpath : String) : String :=
  match xpath.toList with
  | '/' :: '/' :: rest => String.ofList rest
  | '/' :: rest => String.ofList rest
  | _ => xpath

/-- Taking the slashes of an axis away again. -/
lemma unrooted_slashes (axis : Axis) {test : String} (h : '/' ∉ test.toList.head?) :
    unrooted (axis.slashes ++ test) = test := by
  have htest : String.ofList test.toList = test := String.ofList_toList
  cases axis with
  | descendant =>
      have hlist : ("//" ++ test).toList = '/' :: '/' :: test.toList := by simp
      rw [Axis.slashes, unrooted, hlist]
      exact htest
  | child =>
      have hlist : ("/" ++ test).toList = '/' :: test.toList := by simp
      rw [Axis.slashes, unrooted, hlist]
      split
      · next rest heq =>
          have hhead : test.toList = '/' :: rest := (List.cons.inj heq).2
          exact absurd (by simp [hhead]) h
      · next heq =>
          rw [← (List.cons.inj heq).2]
          exact htest
      · next hne => exact absurd rfl (hne _)

namespace Path

variable {p : Path}

/-- A path from the root of the document is the test of the current node after
the slashes of the first step. -/
lemma render_document (h : p.steps ≠ []) (folding : Folding) :
    ∃ axis : Axis, p.render folding .document = axis.slashes ++ p.render folding .self := by
  obtain ⟨steps, property⟩ := p
  cases steps with
  | nil => exact absurd rfl h
  | cons s ss =>
      refine ⟨s.axis, ?_⟩
      simp only [render, outline, Step.bodies, Outline.render, Anchor.lead, String.empty_append,
        String.append_assoc]

/-- A path from the current node has a dot in front of it. -/
lemma render_relative (h : p.steps ≠ []) (folding : Folding) :
    p.render folding .relative = "." ++ p.render folding .document := by
  obtain ⟨steps, property⟩ := p
  cases steps with
  | nil => exact absurd rfl h
  | cons s ss =>
      simp only [render, outline, Step.bodies, Outline.render, Anchor.lead, String.append_assoc]

/-- The test of the current node begins with a step, not with a slash. -/
lemma head_render_self (h : p.steps ≠ []) (hsolid : p.IsSolid) (folding : Folding) :
    '/' ∉ (p.render folding .self).toList.head? := by
  obtain ⟨steps, property⟩ := p
  cases steps with
  | nil => exact absurd rfl h
  | cons s ss =>
      obtain ⟨hne, hbody⟩ := hsolid s List.mem_cons_self folding
      have hne' : (s.body folding).toList ≠ [] := by simpa using hne
      simp only [render, outline, Step.bodies, Outline.render, Anchor.lead, String.empty_append,
        String.toList_append, List.append_assoc, List.head?_append_of_ne_nil _ hne']
      intro hslash
      exact (Balanced.outside_head hbody hslash (by decide)).1 rfl

/-- The slashes of the first step are all that the root of the document adds. -/
lemma unrooted_render (h : p.steps ≠ []) (hsolid : p.IsSolid) (folding : Folding) :
    unrooted (p.render folding .document) = p.render folding .self := by
  obtain ⟨axis, hdocument⟩ := render_document h folding
  rw [hdocument]
  exact unrooted_slashes axis (head_render_self h hsolid folding)

end Path

end XPath

/-! ### The paths of a selector -/

namespace Clause

variable {nested : Segment.Nested}

/-- A chain that is not empty has a first step. -/
lemma steps_ne_nil {source : String} {axis : Axis} {chain : List Char} {ss : List Step}
    (hne : chain ≠ []) (h : steps nested source axis chain = .ok ss) : ss ≠ [] := by
  cases hread : Segment.read chain with
  | error cause =>
      rw [steps_of_read_eq_error hne hread] at h
      simp at h
  | ok r =>
      rw [steps_of_read_eq_ok hne hread] at h
      obtain ⟨step, -, h⟩ := Error.bind_eq_ok.mp h
      obtain ⟨more, -, h⟩ := Error.bind_eq_ok.mp h
      obtain rfl := Error.pure_eq_ok.mp h
      exact List.cons_ne_nil step more

/-- A clause has at least one segment. -/
lemma steps_ne_nil_of_toPath {clause : List Char} {path : Path}
    (h : toPath nested clause = .ok path) : path.steps ≠ [] := by
  rw [toPath] at h
  split_ifs at h
  rw [pathOfTrimmed] at h
  obtain ⟨⟨chain, property⟩, -, h⟩ := Error.bind_eq_ok.mp h
  dsimp only at h
  split_ifs at h with hempty
  obtain ⟨ss, hsteps, h⟩ := Error.bind_eq_ok.mp h
  obtain rfl := Error.pure_eq_ok.mp h
  exact steps_ne_nil (by simpa using hempty) hsteps

end Clause

namespace Selector

/-- The paths of a selector are solid and have a first step. -/
lemma of_mem_paths {selector : List Char} {ps : List Path} (h : paths selector = .ok ps)
    {p : Path} (hp : p ∈ ps) : p.steps ≠ [] ∧ p.IsSolid := by
  refine ⟨?_, isSolid_of_paths h p hp⟩
  rw [paths_eq] at h
  obtain ⟨clauses, -, h⟩ := Error.bind_eq_ok.mp h
  obtain ⟨clause, -, hclause⟩ := Error.exists_of_mem_mapM h hp
  exact Clause.steps_ne_nil_of_toPath hclause

variable {folding : Folding} {selector : String}

/-- All anchors fail alike. -/
lemma compileFrom_of_error {e : Error} (h : paths selector.toList = .error e) (anchor : Anchor) :
    compileFrom folding anchor selector = .error e := by
  rw [compileFrom, h]
  rfl

/-- The anchor comes in only when the paths are rendered. -/
lemma compileFrom_of_ok {ps : List Path} (h : paths selector.toList = .ok ps) (anchor : Anchor) :
    compileFrom folding anchor selector = .ok (ps.map (Path.render folding anchor)) := by
  rw [compileFrom, h]
  rfl

lemma compile_of_ok {ps : List Path} (h : paths selector.toList = .ok ps) :
    compile folding selector = .ok ⟨ps.map (Path.render folding .document)⟩ := by
  rw [compile, compileFrom_of_ok h]
  rfl

lemma compile_of_error {e : Error} (h : paths selector.toList = .error e) :
    compile folding selector = .error e := by
  rw [compile, compileFrom_of_error h]
  rfl

/-- The relative form of every path is its form from the root after a dot. -/
lemma map_render_relative {ps : List Path} (h : paths selector.toList = .ok ps) :
    ps.map (Path.render folding .relative) =
      (ps.map (Path.render folding .document)).map ("." ++ ·) := by
  rw [List.map_map]
  exact List.map_congr_left fun p hp => Path.render_relative (of_mem_paths h hp).1 folding

/-- The test of every path is its form from the root without the slashes. -/
lemma map_render_self {ps : List Path} (h : paths selector.toList = .ok ps) :
    ps.map (Path.render folding .self) =
      (ps.map (Path.render folding .document)).map unrooted := by
  rw [List.map_map]
  refine List.map_congr_left fun p hp => ?_
  obtain ⟨hne, hsolid⟩ := of_mem_paths h hp
  exact (Path.unrooted_render hne hsolid folding).symm

/-! ### Selectors inside a pseudo-class -/

/-- The last predicate of a step, as it is written. -/
def lastPredicate (folding : Folding) (step : Step) : Option String :=
  (Predicate.renderAll folding step.predicates).getLast?

/-- The predicate of a pseudo-class is the last one of its step. -/
lemma map_lastPredicate {nested : Segment.Nested} {source : String} {axis : Axis} {s : Segment}
    {pseudo : Pseudo} (h : s.pseudo = some pseudo) :
    (s.toStep nested source axis).map (lastPredicate folding) =
      (Segment.pseudoTest nested source (s.tag.getD .any) pseudo).map
        fun test => some (test.2.render folding) := by
  rw [Segment.toStep, h]
  dsimp only
  cases Segment.pseudoTest nested source (s.tag.getD .any) pseudo with
  | error e => rfl
  | ok test =>
      show Except.ok (lastPredicate folding _) = Except.ok _
      rw [lastPredicate, Predicate.renderAll_eq_map]
      simp

/-- A selector inside `:has` or `:not` is compiled on its own. -/
lemma pseudoTest_nested {known : PseudoClass} {wrap : List Path → Predicate}
    (hknown : known = .has ∧ wrap = .reaches ∨ known = .not ∧ wrap = .avoids)
    (hne : selector ≠ "") (nested : Segment.Nested) (source : String) (test : NodeTest) :
    Segment.pseudoTest nested source test ⟨known.name, some selector⟩ =
      (nested selector.toList).map fun ps => (test, wrap ps) := by
  have hargument : Pseudo.requiredArgument ⟨known.name, some selector⟩ = .ok selector := by
    rw [Pseudo.requiredArgument]
    exact if_neg (by simpa [String.isEmpty_iff] using hne)
  have hname : PseudoClass.ofName? known.name = some known := by
    rcases hknown with ⟨rfl, -⟩ | ⟨rfl, -⟩ <;> decide +kernel
  rw [Segment.pseudoTest, hname]
  rcases hknown with ⟨rfl, rfl⟩ | ⟨rfl, rfl⟩
  all_goals
    dsimp only
    rw [Segment.knownTest, hargument]
    show (nested selector.toList >>= fun ps => pure (test, _)) = _
    cases nested selector.toList <;> rfl

/-- The last predicate of such a step is written from the compiled clauses, if
it is so for the paths of the selector. -/
lemma lastPredicate_nested {known : PseudoClass} {wrap : List Path → Predicate}
    (hknown : known = .has ∧ wrap = .reaches ∨ known = .not ∧ wrap = .avoids)
    (written : List String → String)
    (hwritten : ∀ ps, paths selector.toList = .ok ps →
      (wrap ps).render folding = written (ps.map (Path.render folding .document)))
    (hne : selector ≠ "") {s : Segment} (h : s.pseudo = some ⟨known.name, some selector⟩)
    (source : String) (axis : Axis) :
    (s.toStep paths source axis).map (lastPredicate folding) =
      (compile folding selector).map fun c => some (written c.clauses) := by
  rw [map_lastPredicate h, pseudoTest_nested hknown hne]
  cases hpaths : paths selector.toList with
  | error e =>
      rw [compile_of_error hpaths]
      rfl
  | ok ps =>
      rw [compile_of_ok hpaths]
      exact congrArg (Except.ok ∘ some) (hwritten ps hpaths)

/-- `:has` asks that one of the paths leads somewhere from the element. -/
lemma render_reaches {ps : List Path} (h : paths selector.toList = .ok ps) :
    (Predicate.reaches ps).render folding =
      " | ".intercalate ((ps.map (Path.render folding .document)).map ("." ++ ·)) := by
  rw [Predicate.render, Path.renderAll_eq_map, map_render_relative h]

/-- `:not` asks that none of the paths, begun at the element itself, leads
somewhere. -/
lemma render_avoids {ps : List Path} (h : paths selector.toList = .ok ps) :
    (Predicate.avoids ps).render folding =
      " and ".intercalate ((ps.map (Path.render folding .document)).map fun xpath =>
        "not(self::" ++ unrooted xpath ++ ")") := by
  have havoided : (Path.outlines folding ps).map Outline.renderAvoided =
      (ps.map (Path.render folding .self)).map fun test => "not(self::" ++ test ++ ")" := by
    rw [Path.outlines_eq_map, List.map_map, List.map_map]
    rfl
  rw [Predicate.render, havoided, map_render_self h, List.map_map]
  rfl

/-- **Anchors change only what stands before the first step.** For any text,
compiling from the three anchors either fails three times with the same error
or gives three lists of the same length: a clause from the root of the document
is the clause as a test of the node after one or two slashes, and a clause from
the node is the clause from the root after a dot. So `:has` and `:not` fail as
their argument does, and else ask for the clauses it is compiled to, after dots
or without their leading slashes; and the relative form of a compiled selector
is made of its clauses from the node. -/
theorem anchors_change_lead (folding : Folding) (selector : String) :
    ((∃ e, ∀ anchor, compileFrom folding anchor selector = .error e) ∨
      ∃ document relative self,
        compileFrom folding .document selector = .ok document ∧
          compileFrom folding .relative selector = .ok relative ∧
            compileFrom folding .self selector = .ok self ∧
              List.Forall₂ (fun xpath test => xpath = "//" ++ test ∨ xpath = "/" ++ test)
                  document self ∧
                relative = document.map ("." ++ ·)) ∧
      (selector ≠ "" → ∀ (s : Segment) (source : String) (axis : Axis),
        (s.pseudo = some ⟨"has", some selector⟩ →
          (s.toStep paths source axis).map (lastPredicate folding) =
            (compile folding selector).map fun c =>
              some (" | ".intercalate (c.clauses.map ("." ++ ·)))) ∧
          (s.pseudo = some ⟨"not", some selector⟩ →
            (s.toStep paths source axis).map (lastPredicate folding) =
              (compile folding selector).map fun c =>
                some (" and ".intercalate (c.clauses.map fun xpath =>
                  "not(self::" ++ unrooted xpath ++ ")")))) ∧
        (compile folding selector).map Compiled.relative =
          (compileFrom folding .relative selector).map ("|".intercalate ·) := by
  refine ⟨?_, fun hne s source axis => ⟨fun h => ?_, fun h => ?_⟩, ?_⟩
  · -- the paths do not depend on the anchor; the errors are theirs
    cases hpaths : paths selector.toList with
    | error e => exact .inl ⟨e, compileFrom_of_error hpaths⟩
    | ok ps =>
        refine .inr ⟨_, _, _, compileFrom_of_ok hpaths _, compileFrom_of_ok hpaths _,
          compileFrom_of_ok hpaths _, ?_, map_render_relative hpaths⟩
        rw [List.forall₂_map_left_iff, List.forall₂_map_right_iff, List.forall₂_same]
        intro p hp
        obtain ⟨axis, hdocument⟩ := Path.render_document (of_mem_paths hpaths hp).1 folding
        rw [hdocument]
        cases axis with
        | descendant => exact .inl rfl
        | child => exact .inr rfl
  · -- a nested selector is compiled like one of its own, and its paths are put into the predicate
    exact lastPredicate_nested (.inl ⟨rfl, rfl⟩)
      (fun xpaths => " | ".intercalate (xpaths.map ("." ++ ·)))
      (fun _ => render_reaches) hne h source axis
  · exact lastPredicate_nested (.inr ⟨rfl, rfl⟩)
      (fun xpaths => " and ".intercalate (xpaths.map fun xpath =>
        "not(self::" ++ unrooted xpath ++ ")"))
      (fun _ => render_avoids) hne h source axis
  · cases hpaths : paths selector.toList with
    | error e =>
        rw [compile_of_error hpaths, compileFrom_of_error hpaths]
        rfl
    | ok ps =>
        rw [compile_of_ok hpaths, compileFrom_of_ok hpaths, map_render_relative hpaths]
        rfl

/-- A union with a leading `>`, a nested `:not` and a property, inside `:has` and
inside `:not`. -/
theorem anchors_change_lead_nested :
    compile .ascii "> a::text, b:not(c)" = .ok ⟨["/a/text()", "//b[not(self::c)]"]⟩ ∧
      (Segment.toStep paths "" .child { pseudo := some ⟨"has", some "> a::text, b:not(c)"⟩ }).map
          (lastPredicate .ascii) = .ok (some "./a/text() | .//b[not(self::c)]") ∧
        (Segment.toStep paths "" .child
            { pseudo := some ⟨"not", some "> a::text, b:not(c)"⟩ }).map (lastPredicate .ascii) =
          .ok (some "not(self::a/text()) and not(self::b[not(self::c)])") := by
  have hcompile : compile .ascii "> a::text, b:not(c)" =
      .ok ⟨["/a/text()", "//b[not(self::c)]"]⟩ := by
    decide +kernel
  obtain ⟨-, hsteps, -⟩ := anchors_change_lead .ascii "> a::text, b:not(c)"
  refine ⟨hcompile, ?_, ?_⟩
  · rw [(hsteps (by decide) _ "" .child).1 rfl, hcompile]
    rfl
  · rw [(hsteps (by decide) _ "" .child).2 rfl, hcompile]
    decide +kernel

end Selector

end SelectorPath
