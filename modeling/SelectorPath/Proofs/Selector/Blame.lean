/-
What errors point to: a part of the selector, and its first clause that fails.

Errors arise in the readers of all parts of a selector, at any depth of `:has` and
`:not`, and each is laid to the text that was at hand. However many times that text
has been cut and trimmed, it still stands in the selector.

* `Pseudo.IsNamedIn`: a name that stands in a text behind a colon.
* `Error.PointsInto`: the text or the name that an error shows stands in a text.
* `Error.Within`: all errors of a result point into a text.
* `Segment.within_toStep`, `Clause.within_steps`, `Clause.within_toPath`,
  `Selector.within_paths`: errors of a segment, a chain, a clause and a selector.
* `Error.exists_first_of_mapM_eq_error`: a list fails as its first element that does.
* `Selector.compile_blames_first_failure`: the main statement.
-/
import SelectorPath.Proofs.Selector.Grammar

namespace SelectorPath

open XPath

/-! ### Parts of a text -/

namespace Text

lemma ofList_isInfix (text : List Char) : (String.ofList text).toList <:+: text := by
  simp

/-- Trimming cuts off something at both ends. -/
lemma trim_isInfix (text : List Char) : trim text <:+: text :=
  (trimEnd_prefixed (trimStart text)).isInfix.trans (trimStart_suffix text).isInfix

/-- The first piece stands at the front of the text, the others in it. -/
lemma isInfix_of_cut {delimiter : Char} {s : Nesting} {text piece : List Char}
    {more : List (List Char)} (h : cut delimiter s text = some (piece, more)) :
    piece <+: text ∧ ∀ p ∈ more, p <:+: text := by
  induction text generalizing s piece more with
  | nil =>
      rw [cut] at h
      split_ifs at h
      obtain ⟨rfl, rfl⟩ := Prod.mk.inj (Option.some.inj h)
      exact ⟨List.prefix_rfl, by simp⟩
  | cons c text ih =>
      rw [cut] at h
      obtain ⟨⟨piece', more'⟩, hcut, heq⟩ := Option.map_eq_some_iff.mp h
      obtain ⟨hpiece, hmore⟩ := ih hcut
      have hskip : text <:+: c :: text := (List.suffix_cons c text).isInfix
      dsimp only at heq
      split_ifs at heq
      · obtain ⟨rfl, rfl⟩ := Prod.mk.inj heq
        refine ⟨by simp, List.forall_mem_cons.mpr ⟨hpiece.isInfix.trans hskip, fun p hp => ?_⟩⟩
        exact (hmore p hp).trans hskip
      · obtain ⟨rfl, rfl⟩ := Prod.mk.inj heq
        exact ⟨List.cons_prefix_cons.mpr ⟨rfl, hpiece⟩, fun p hp => (hmore p hp).trans hskip⟩

/-- The pieces of a text stand in it. -/
lemma isInfix_of_mem_splitTopLevel {delimiter : Char} {text : List Char}
    {parts : List (List Char)} (h : splitTopLevel delimiter text = some parts) :
    ∀ p ∈ parts, p <:+: text := by
  obtain ⟨⟨piece, more⟩, hcut, rfl⟩ := Option.map_eq_some_iff.mp h
  obtain ⟨hpiece, hmore⟩ := isInfix_of_cut hcut
  exact List.forall_mem_cons.mpr ⟨hpiece.isInfix, hmore⟩

end Text

/-- A pseudo-class of this name is written in the text: the name stands directly
behind a colon. -/
structure Pseudo.IsNamedIn (text : List Char) (name : String) : Prop where
  ne_empty : name ≠ ""
  symbols : ∀ c ∈ name.toList, Symbol.isName c = true
  behind_colon : ':' :: name.toList <:+: text

lemma Pseudo.IsNamedIn.mono {part text : List Char} {name : String} (h : IsNamedIn part name)
    (hpart : part <:+: text) : IsNamedIn text name :=
  ⟨h.ne_empty, h.symbols, h.behind_colon.trans hpart⟩

/-- The pseudo-class is written in the text with its argument. -/
structure Pseudo.IsWrittenIn (text : List Char) (pseudo : Pseudo) : Prop where
  name : IsNamedIn text pseudo.name
  argument : ∀ a ∈ pseudo.argument, a.toList <:+: text

lemma Pseudo.IsWrittenIn.mono {part text : List Char} {pseudo : Pseudo}
    (h : IsWrittenIn part pseudo) (hpart : part <:+: text) : IsWrittenIn text pseudo :=
  ⟨h.name.mono hpart, fun a ha => (h.argument a ha).trans hpart⟩

/-! ### Errors that point into a text -/

namespace Error

/-- What an error shows of a selector stands in the text: a part that is
malformed, or the name of a pseudo-class that is not known. -/
inductive PointsInto (text : List Char) : Error → Prop
  | malformed {part : String} {cause : Cause} : part.toList <:+: text →
      PointsInto text (.malformed part cause)
  | unsupported {name : String} : Pseudo.IsNamedIn text name →
      name ∉ ["first-child", "last-child", "empty", "not-empty", "nth-child", "nth-of-type",
        "contains", "has", "not"] →
      PointsInto text (.unsupported name)

/-- What stands in a part stands in the whole. -/
lemma PointsInto.mono {part text : List Char} {e : Error} (h : PointsInto part e)
    (hpart : part <:+: text) : PointsInto text e := by
  cases h with
  | malformed hselector => exact .malformed (hselector.trans hpart)
  | unsupported hname hunknown => exact .unsupported (hname.mono hpart) hunknown

/-- If there is no result, it is for an error that points into the text. -/
abbrev Within {α : Type} (text : List Char) (x : Except Error α) : Prop := Only (PointsInto text) x

namespace Within

variable {α : Type} {part text : List Char}

/-- What points into a part points into the whole. -/
lemma mono {x : Except Error α} (hx : Within part x) (hpart : part <:+: text) :
    Within text x :=
  hx.imp fun _ he => he.mono hpart

/-- Whatever the cause, it is laid to a part of the text. -/
lemma blame {source : String} (hsource : source.toList <:+: text) (x : Except Cause α) :
    Within text (Error.blame source x) :=
  Only.blame (P := fun _ => True) (fun _ _ => trivial) fun _ _ => .malformed hsource

end Within

end Error

open Error (Within)

/-! ### Segments -/

/-- A name that belongs to no pseudo-class is none of the known ones. -/
lemma PseudoClass.not_mem_of_ofName?_eq_none {name : String} (h : ofName? name = none) :
    name ∉ ["first-child", "last-child", "empty", "not-empty", "nth-child", "nth-of-type",
      "contains", "has", "not"] := by
  intro hmem
  have hall : ∀ known ∈ all, known.name ≠ name := by simpa [ofName?] using h
  obtain ⟨known, hknown, hname⟩ : ∃ known ∈ all, known.name = name := List.mem_map.mp hmem
  exact hall known hknown hname

namespace Segment

/-- The name is spelled behind a colon, and the argument is what stands in parentheses,
trimmed. -/
lemma SpelledPseudo.isWrittenIn {after text : List Char} {pseudo : Pseudo}
    (h : SpelledPseudo after (some pseudo) text) : pseudo.IsWrittenIn text := by
  cases h with
  | @bare name hname =>
      exact ⟨⟨by simpa using hname.ne_nil, by simpa using hname.symbols, by simp⟩, by simp⟩
  | @argument name raw hname _ =>
      refine ⟨⟨by simpa using hname.ne_nil, by simpa using hname.symbols, ?_⟩, ?_⟩
      · rw [String.toList_ofList, ← List.cons_append]
        exact (List.prefix_append _ _).isInfix
      · rintro _ ⟨⟩
        rw [String.toList_ofList]
        exact (Text.trim_isInfix raw).trans ⟨':' :: (name ++ ['(']), [')'], by simp⟩

/-- What comes out of reading a segment stands in the text it was read from. -/
lemma isInfix_of_read {text rest : List Char} {segment : Segment}
    (h : read text = .ok (segment, rest)) :
    rest <:+: text ∧ ∀ pseudo ∈ segment.pseudo, pseudo.IsWrittenIn text := by
  obtain ⟨_, rfl, blanks, tag, id, classes, attributes, written, separator, rfl, -, -, -, -, -,
    hwritten, -⟩ := read_eq_ok_iff.mp h
  refine ⟨(List.suffix_append _ rest).isInfix, fun pseudo hpseudo => ?_⟩
  rw [Option.mem_def.mp hpseudo] at hwritten
  -- the pseudo-class is one of the parts that the text is made of
  exact hwritten.isWrittenIn.mono
    ⟨blanks ++ (tag ++ (id ++ (classes ++ attributes))), separator ++ rest, by simp⟩

variable {text : List Char} {nested : Nested} {source : String}

/-- A known pseudo-class lays its errors to the source, apart from those of the
selector in its argument. -/
lemma within_knownTest (hsource : source.toList <:+: text) {pseudo : Pseudo}
    (hnested : ∀ a ∈ pseudo.argument, Within text (nested a.toList)) (test : NodeTest)
    (known : PseudoClass) : Within text (knownTest nested source test pseudo known) := by
  cases known with
  | firstChild | lastChild | empty | notEmpty => exact .ok _
  | nthChild | nthOfType | contains => exact (Within.blame hsource _).bind fun _ _ => .ok _
  | has | not =>
      refine (Within.blame hsource _).bind fun a ha => ?_
      have hargument := Pseudo.argument_of_requiredArgument (Error.blame_eq_ok.mp ha)
      exact (hnested a hargument).bind fun _ _ => .ok _

/-- A segment is laid to its source, or it has a pseudo-class that fails. -/
lemma within_toStep (hsource : source.toList <:+: text)
    (hnested : ∀ inner, Within inner (nested inner)) {s : Segment}
    (hpseudo : ∀ pseudo ∈ s.pseudo, pseudo.IsWrittenIn text) (axis : Axis) :
    Within text (s.toStep nested source axis) := by
  rw [toStep]
  split
  · next pseudo heq =>
      obtain ⟨hname, hargument⟩ := hpseudo pseudo heq
      refine Error.Only.bind ?_ fun _ _ => .ok _
      rw [pseudoTest]
      split
      · exact within_knownTest hsource (fun a ha => (hnested _).mono (hargument a ha)) _ _
      · next hunknown =>
          exact .error (.unsupported hname (PseudoClass.not_mem_of_ofName?_eq_none hunknown))
  · split_ifs
    · exact .error (.malformed hsource)
    · exact .ok _

end Segment

/-! ### Clauses -/

namespace Clause

/-- The chain is what comes before the property. -/
lemma splitProperty_isInfix {source chain : List Char} {property : Option Property}
    (h : splitProperty source = .ok (chain, property)) : chain <:+: source := by
  rw [splitProperty] at h
  split at h
  · next i _ =>
      obtain ⟨_, -, h⟩ := Error.bind_eq_ok.mp h
      obtain ⟨rfl, -⟩ := Prod.mk.inj (Error.pure_eq_ok.mp h)
      have hfront : source.take i <+: source := List.take_prefix i source
      exact hfront.isInfix
  · obtain ⟨rfl, -⟩ := Prod.mk.inj (Except.ok.inj h)
    exact List.infix_rfl

lemma splitAxis_isInfix (chain : List Char) : (splitAxis chain).2 <:+: chain := by
  rw [splitAxis]
  split
  · next rest heq =>
      have hrest : rest <:+: Text.trim chain := heq ▸ (List.suffix_cons '>' rest).isInfix
      exact (Text.trimStart_suffix rest).isInfix.trans (hrest.trans (Text.trim_isInfix chain))
  · exact Text.trim_isInfix chain

variable {nested : Segment.Nested} {text : List Char}

/-- Segment by segment, an error of a chain is laid to the source or comes out of
the segment itself. -/
lemma within_steps (hnested : ∀ inner, Within inner (nested inner)) {source : String}
    (hsource : source.toList <:+: text) (axis : Axis) {chain : List Char}
    (hchain : chain <:+: text) : Within text (steps nested source axis chain) := by
  fun_induction steps nested source axis chain with
  | case1 => exact .error (.malformed hsource)
  | case2 => exact .ok _
  | case3 => exact .error (.malformed hsource)
  | case4 axis chain _ segment rest hread ih =>
      obtain ⟨hrest, hpseudo⟩ := Segment.isInfix_of_read hread
      have hstep : Within text (segment.toStep nested source axis) :=
        Segment.within_toStep hsource hnested (fun p hp => (hpseudo p hp).mono hchain) axis
      refine hstep.bind fun step _ => ?_
      exact (ih (hrest.trans hchain)).bind fun _ _ => .ok _

/-- A clause that is empty is laid to itself, any other to itself without the white space
around it. -/
lemma within_toPath (hnested : ∀ inner, Within inner (nested inner)) (clause : List Char) :
    Within clause (toPath nested clause) := by
  rw [toPath]
  split_ifs
  · exact .error (.malformed (Text.ofList_isInfix clause))
  · have hname := Text.ofList_isInfix (Text.trim clause)
    -- from here on all errors are laid to the trimmed clause
    refine Within.mono ?_ (Text.trim_isInfix clause)
    rw [pathOfTrimmed]
    refine (Within.blame hname _).bind fun found hsplit => ?_
    obtain ⟨chain, property⟩ := found
    dsimp only
    split_ifs
    · exact .error (.malformed hname)
    · have hchain := splitProperty_isInfix (Error.blame_eq_ok.mp hsplit)
      have hsteps := within_steps hnested hname (splitAxis chain).1
        ((splitAxis_isInfix chain).trans hchain)
      exact hsteps.bind fun _ _ => .ok _

lemma within_splitUnion (selector : List Char) : Within selector (splitUnion selector) := by
  have hselector := Text.ofList_isInfix selector
  rw [splitUnion]
  split
  · exact .error (.malformed hselector)
  · split_ifs
    · exact .error (.malformed hselector)
    · exact .ok _

/-- The clauses stand in the selector, trimmed. -/
lemma isInfix_of_mem_splitUnion {selector : List Char} {clauses : List (List Char)}
    (h : splitUnion selector = .ok clauses) : ∀ c ∈ clauses, c <:+: selector := by
  rw [splitUnion] at h
  split at h
  · cases h
  · next parts hparts =>
      split_ifs at h
      obtain rfl := Except.ok.inj h
      intro c hc
      obtain ⟨part, hpart, rfl⟩ := List.mem_map.mp hc
      exact (Text.trim_isInfix part).trans (Text.isInfix_of_mem_splitTopLevel hparts part hpart)

/-- The errors of a clause point into the clause, and so into the selector. -/
lemma within_unionPaths (hnested : ∀ inner, Within inner (nested inner)) (selector : List Char) :
    Within selector (unionPaths nested selector) :=
  (within_splitUnion selector).bind fun _ hclauses => .mapM fun clause hclause =>
    (within_toPath hnested clause).mono (isInfix_of_mem_splitUnion hclauses clause hclause)

end Clause

/-! ### Selectors -/

namespace Error

variable {ε α β : Type} {e : ε}

/-- Two steps fail together exactly when the first does, or else the second. -/
lemma bind_eq_error {x : Except ε α} {f : α → Except ε β} :
    (x >>= f) = .error e ↔ x = .error e ∨ ∃ a, x = .ok a ∧ f a = .error e := by
  cases x with
  | error e' => simp [bind, Except.bind]
  | ok a => simp [bind, Except.bind]

/-- A list fails as its first element that does. -/
lemma exists_first_of_mapM_eq_error {f : α → Except ε β} {xs : List α}
    (h : xs.mapM f = .error e) : ∃ before x after, xs = before ++ x :: after ∧
      (∀ a ∈ before, ∃ b, f a = .ok b) ∧ f x = .error e := by
  induction xs with
  | nil => cases h
  | cons x xs ih =>
      rw [List.mapM_cons] at h
      rcases bind_eq_error.mp h with hx | ⟨y, hx, h⟩
      · exact ⟨[], x, xs, rfl, by simp, hx⟩
      · rcases bind_eq_error.mp h with hxs | ⟨_, -, h⟩
        · obtain ⟨before, x', after, rfl, hbefore, hx'⟩ := ih hxs
          exact ⟨x :: before, x', after, rfl, List.forall_mem_cons.mpr ⟨⟨y, hx⟩, hbefore⟩, hx'⟩
        · cases h

end Error

namespace Selector

/-- All errors of a selector point into it, also those of the selectors inside its
pseudo-classes; by induction over the length of the text. -/
theorem within_paths (selector : List Char) : Within selector (paths selector) := by
  rw [paths]
  refine Clause.within_unionPaths (fun inner => ?_) selector
  -- longer texts are not handed on, so what stands for their result is never an error
  split_ifs with hshorter
  · exact within_paths inner
  · exact .ok _
termination_by selector.length

/-- The error of a selector is the error of its first clause that has one. -/
lemma exists_first_of_compile_eq_error {folding : Folding} {selector : String} {e : Error}
    {clauses : List String} (h : compile folding selector = .error e)
    (hclauses : splitClauses selector = .ok clauses) :
    ∃ before clause after, clauses = before ++ clause :: after ∧
      (∀ c ∈ before, ∃ xpath, compileClause folding c = .ok xpath) ∧
        compileClause folding clause = .error e := by
  rw [compile_eq] at h
  obtain hsplit | ⟨_, hsplit, h⟩ := Error.bind_eq_error.mp h
  · cases hclauses.symm.trans hsplit
  · obtain rfl := Except.ok.inj (hclauses.symm.trans hsplit)
    obtain hmapM | ⟨_, -, h⟩ := Error.bind_eq_error.mp h
    · exact Error.exists_first_of_mapM_eq_error hmapM
    · cases h

/-- **Errors point into the selector.** An error that a selector is rejected with
either shows a part of the selector, or it is for a name behind a colon that belongs to
no pseudo-class. If the selector can be cut into clauses, it is the error of the first
clause that is not compiled. -/
theorem compile_blames_first_failure {folding : Folding} {selector : String} {e : Error}
    (h : compile folding selector = .error e) :
    e.PointsInto selector.toList ∧
      ∀ clauses, splitClauses selector = .ok clauses →
        ∃ before clause after, clauses = before ++ clause :: after ∧
          (∀ c ∈ before, ∃ xpath, compileClause folding c = .ok xpath) ∧
            compileClause folding clause = .error e := by
  refine ⟨?_, fun clauses hclauses => exists_first_of_compile_eq_error h hclauses⟩
  have hpaths : paths selector.toList = .error e :=
    Error.map_eq_error_iff.mp (Error.map_eq_error_iff.mp h)
  exact within_paths selector.toList e hpaths

/-- Of the two clauses that fail the first one counts. Its error is that of the
selector inside it. -/
theorem compile_blames_first_failure_nested :
    compile .ascii "a, b:has(c:odd > d), e:" = .error (.unsupported "odd") ∧
      Error.PointsInto "a, b:has(c:odd > d), e:".toList (.unsupported "odd") ∧
        splitClauses "a, b:has(c:odd > d), e:" = .ok ["a", "b:has(c:odd > d)", "e:"] ∧
          ∃ before clause after, ["a", "b:has(c:odd > d)", "e:"] = before ++ clause :: after ∧
            (∀ c ∈ before, ∃ xpath, compileClause .ascii c = .ok xpath) ∧
              compileClause .ascii clause = .error (.unsupported "odd") := by
  have h : compile .ascii "a, b:has(c:odd > d), e:" = .error (.unsupported "odd") := by
    decide +kernel
  have hclauses : splitClauses "a, b:has(c:odd > d), e:" =
      .ok ["a", "b:has(c:odd > d)", "e:"] := by decide +kernel
  obtain ⟨hpoints, hfirst⟩ := compile_blames_first_failure h
  exact ⟨h, hpoints, hclauses, hfirst _ hclauses⟩

end Selector

end SelectorPath
