/-
Causes for which no selector is rejected.

A segment is read where something else than blanks is left. Either a part of a segment
begins there or the symbol is not expected, so no segment is found empty, and none comes
without a part that becomes a test.

* `Cause.IsOrdinary`: the causes that the readers of the parts give;
  `Segment.ordinary_read`: those of a segment, where there is more than blanks.
* `Error.NotBare`: errors that are not for an empty segment;
  `Segment.notBare_toStep`, `Clause.notBare_steps`, `Clause.notBare_toPath`,
  `Selector.notBare_paths`: there are no others.
-/
import SelectorPath.Proofs.Selector.Grammar

namespace SelectorPath

open XPath

open Error (Only)

/-! ### Causes that readers give -/

/-- Something is wrong with what stands in the text, and not that there is nothing. -/
def Cause.IsOrdinary : Cause → Prop
  | .emptySelector | .bareSegment | .bareStep => False
  | _ => True

/-- An argument may not be closed. -/
lemma Argument.ordinary_read (text : List Char) : Only Cause.IsOrdinary (Argument.read text) := by
  rw [Argument.read.eq_def]
  split
  · split
    · exact .ok _
    · exact .error trivial
  · exact .ok _

/-- A body may have no operator it knows, or a name or a value that it cannot have. -/
lemma AttributeTest.ordinary_ofBody (body : List Char) :
    Only Cause.IsOrdinary (AttributeTest.ofBody body) := by
  rw [ofBody]
  refine Only.bind ?_ fun found _ => ?_
  · rw [splitOperator]
    dsimp only
    split
    · exact .ok _
    · split_ifs
      · exact .ok _
      · exact .error trivial
  · obtain ⟨op, name⟩ := found
    dsimp only
    rw [checked]
    split_ifs
    · exact .error trivial
    · exact .error trivial
    · exact .error trivial
    · exact .error trivial
    · exact .ok _

/-- A property may have a name that is missing or not known, or something after it, or the
wrong argument. -/
lemma XPath.Property.ordinary_read (source : List Char) :
    Only Cause.IsOrdinary (Property.read source) := by
  rw [Property.read]
  split
  · exact .error trivial
  · refine (Argument.ordinary_read _).bind fun found _ => ?_
    dsimp only
    split_ifs
    · rw [ofName]
      split_ifs
      · exact .error trivial
      · exact .ok _
      · split
        · exact .error trivial
        · exact .ok _
      · exact .error trivial
    · exact .error trivial

/-- The part before the property is not looked at yet. -/
lemma Clause.ordinary_splitProperty (source : List Char) :
    Only Cause.IsOrdinary (splitProperty source) := by
  rw [splitProperty]
  split
  · exact (Property.ordinary_read _).bind fun _ _ => .ok _
  · exact .ok _

namespace Pseudo

/-- An argument may be missing or empty, which is a fault of the pseudo-class. -/
lemma ordinary_requiredArgument (pseudo : Pseudo) :
    Only Cause.IsOrdinary pseudo.requiredArgument := by
  rw [requiredArgument]
  split
  · exact .error trivial
  · split_ifs
    · exact .error trivial
    · exact .ok _

/-- Beyond that an argument may be no positions. -/
lemma ordinary_positionCondition (pseudo : Pseudo) :
    Only Cause.IsOrdinary pseudo.positionCondition := by
  refine pseudo.ordinary_requiredArgument.bind fun argument _ => ?_
  split
  · exact .ok _
  · exact .error trivial

/-- Beyond that a quotation may not be closed. -/
lemma ordinary_containsCondition (pseudo : Pseudo) :
    Only Cause.IsOrdinary pseudo.containsCondition := by
  refine pseudo.ordinary_requiredArgument.bind fun argument _ => ?_
  split
  · exact .error trivial
  · dsimp only
    split_ifs <;> exact .ok _

end Pseudo

namespace Segment

lemma ordinary_readId (text : List Char) : Only Cause.IsOrdinary (readId text) := by
  rw [readId.eq_def]
  split
  · split
    · exact .ok _
    · exact .error trivial
  · exact .ok _

/-- Class by class, along the recursion of the reader. -/
lemma ordinary_readClasses (text : List Char) : Only Cause.IsOrdinary (readClasses text) := by
  fun_induction readClasses text with
  | case1 text name rest _ ih => exact ih.bind fun _ _ => .ok _
  | case2 => exact .error trivial
  | case3 => exact .ok _

/-- Test by test, along the recursion of the reader. -/
lemma ordinary_readAttributes (text : List Char) :
    Only Cause.IsOrdinary (readAttributes text) := by
  fun_induction readAttributes text with
  | case1 text body rest _ ih =>
      exact (AttributeTest.ordinary_ofBody body).bind fun _ _ => ih.bind fun _ _ => .ok _
  | case2 => exact .error trivial
  | case3 => exact .ok _

/-- A second colon, a missing name or an argument that is not closed. -/
lemma ordinary_readPseudo (text : List Char) : Only Cause.IsOrdinary (readPseudo text) := by
  rw [readPseudo.eq_def]
  split
  · exact .error trivial
  · split
    · exact (Argument.ordinary_read _).bind fun _ _ => .ok _
    · exact .error trivial
  · exact .ok _

/-- A separator is blanks or an arrow; anything else is not expected. -/
lemma ordinary_readCombinator (text : List Char) :
    Only Cause.IsOrdinary (readCombinator text) := by
  rw [readCombinator]
  split
  · exact .ok _
  · exact .ok _
  · split_ifs
    · exact .ok _
    · exact .error trivial

/-- A text in which no part of a segment is found is left as it is. -/
lemma eq_of_no_part {text afterTag afterId afterClasses afterAttributes rest : List Char}
    (htag : readTag text = (none, afterTag)) (hid : readId afterTag = .ok (none, afterId))
    (hclasses : readClasses afterId = .ok ([], afterClasses))
    (hattributes : readAttributes afterClasses = .ok ([], afterAttributes))
    (hpseudo : readPseudo afterAttributes = .ok (none, rest)) : text = rest := by
  obtain ⟨_, rfl, ⟨⟩⟩ := spelled_of_readTag htag
  obtain ⟨_, rfl, ⟨⟩⟩ := spelled_of_readId hid
  obtain ⟨_, rfl, ⟨⟩⟩ := spelled_of_readClasses hclasses
  obtain ⟨_, rfl, ⟨⟩⟩ := spelled_of_readAttributes hattributes
  obtain ⟨_, rfl, ⟨⟩⟩ := spelled_of_readPseudo hpseudo
  rfl

/-- The reader finds a segment empty only if all of its parts are missing, and then
nothing of the text has been taken up: there would have to be nothing left. -/
lemma ordinary_readCompound {text : List Char} (h : text ≠ []) :
    Only Cause.IsOrdinary (readCompound text) := by
  rw [readCompound]
  refine (ordinary_readId _).bind fun found hid => ?_
  obtain ⟨id, afterId⟩ := found
  refine (ordinary_readClasses _).bind fun found hclasses => ?_
  obtain ⟨classes, afterClasses⟩ := found
  refine (ordinary_readAttributes _).bind fun found hattributes => ?_
  obtain ⟨attributes, afterAttributes⟩ := found
  refine (ordinary_readPseudo _).bind fun found hpseudo => ?_
  obtain ⟨pseudo, rest⟩ := found
  dsimp only
  split_ifs with hpart
  · exact .ok _
  · split
    · exact .error trivial
    · -- without any part the text would be at its end
      simp only [isConstrained, Bool.or_eq_true, Bool.not_eq_true', List.isEmpty_eq_false_iff,
        not_or, Bool.not_eq_true, Option.isSome_eq_false_iff, Option.isNone_iff_eq_none, ne_eq,
        not_not] at hpart
      obtain ⟨htag, ⟨⟨rfl, rfl⟩, rfl⟩, rfl⟩ := hpart
      have htag' : readTag text = (none, (readTag text).2) := Prod.ext htag rfl
      exact absurd (eq_of_no_part htag' hid hclasses hattributes hpseudo) h

/-- Where there is more than blanks, something is found or something is wrong with it. -/
theorem ordinary_read {text : List Char} (h : Text.skipBlanks text ≠ []) :
    Only Cause.IsOrdinary (read text) := by
  rw [read, if_neg (by simpa using h)]
  refine (ordinary_readCompound h).bind fun _ _ => ?_
  exact (ordinary_readCombinator _).bind fun _ _ => .ok _

end Segment

/-! ### No segment is found empty -/

/-- The error is not for a segment that has no part or tests nothing. -/
def Error.NotBare : Error → Prop
  | .malformed _ .bareSegment | .malformed _ .bareStep => False
  | _ => True

/-- An ordinary cause makes an error for something that stands there. -/
lemma Cause.IsOrdinary.notBare {cause : Cause} (h : cause.IsOrdinary) (source : String) :
    (Error.malformed source cause).NotBare := by
  cases cause <;> trivial

/-- Ordinary causes stay ordinary errors when they are laid to a source. -/
lemma Error.Only.notBare_blame {α : Type} {source : String} {x : Except Cause α}
    (h : Only Cause.IsOrdinary x) : Only NotBare (Error.blame source x) :=
  h.blame fun _ hcause => hcause.notBare source

namespace Segment

variable {nested : Nested} {source : String}

/-- A segment of blanks only is an error of its own, and any other fails for an ordinary
cause. -/
lemma notBare_of_read {text : List Char} {cause : Cause} (h : read text = .error cause) :
    (Error.malformed source cause).NotBare := by
  by_cases hblank : Text.skipBlanks text = []
  · rw [read, hblank] at h
    obtain rfl := Except.error.inj h
    trivial
  · exact (ordinary_read hblank cause h).notBare source

/-- A pseudo-class fails for its argument, or as the selector inside it does. -/
lemma notBare_knownTest {pseudo : Pseudo} (hnested : ∀ inner, Only Error.NotBare (nested inner))
    (test : NodeTest) (known : PseudoClass) :
    Only Error.NotBare (knownTest nested source test pseudo known) := by
  cases known with
  | firstChild | lastChild | empty | notEmpty => exact .ok _
  | nthChild | nthOfType =>
      exact pseudo.ordinary_positionCondition.notBare_blame.bind fun _ _ => .ok _
  | contains => exact pseudo.ordinary_containsCondition.notBare_blame.bind fun _ _ => .ok _
  | has | not =>
      exact pseudo.ordinary_requiredArgument.notBare_blame.bind fun inner _ =>
        (hnested inner.toList).bind fun _ _ => .ok _

/-- Every part but the tag and the pseudo-class gives a condition. -/
lemma isConstrained_of_conditions_eq_nil {s : Segment} (hpseudo : s.pseudo = none)
    (h : s.conditions = []) : s.isConstrained = false := by
  simp only [conditions, List.append_eq_nil_iff, List.map_eq_nil_iff, Option.toList_eq_nil_iff]
    at h
  obtain ⟨⟨hid, hclasses⟩, hattributes⟩ := h
  simp [isConstrained, hid, hclasses, hattributes, hpseudo]

/-- A segment that was read has a part to test. -/
lemma notBare_toStep (hnested : ∀ inner, Only Error.NotBare (nested inner)) {s : Segment}
    (hpart : (s.tag.isSome || s.isConstrained) = true) (axis : Axis) :
    Only Error.NotBare (s.toStep nested source axis) := by
  rw [toStep]
  split
  · refine Only.bind ?_ fun _ _ => .ok _
    rw [pseudoTest]
    split
    · exact notBare_knownTest hnested _ _
    · exact .error trivial
  · next hpseudo =>
      split_ifs with hbare
      · rw [Bool.and_eq_true, Option.isNone_iff_eq_none, List.isEmpty_iff] at hbare
        rw [hbare.1, isConstrained_of_conditions_eq_nil hpseudo hbare.2] at hpart
        cases hpart
      · exact .ok _

end Segment

namespace Clause

variable {nested : Segment.Nested} (hnested : ∀ inner, Only Error.NotBare (nested inner))

include hnested

/-- Segment by segment: each is read where there is more than blanks, and what was read
has a part to test. -/
lemma notBare_steps (source : String) (axis : Axis) (chain : List Char) :
    Only Error.NotBare (steps nested source axis chain) := by
  fun_induction steps nested source axis chain with
  | case1 => exact .error trivial
  | case2 => exact .ok _
  | case3 axis chain _ cause hread => exact .error (Segment.notBare_of_read hread)
  | case4 axis chain _ segment rest hread ih =>
      obtain ⟨_, -, _, _, _, _, _, _, _, -, -, -, -, -, -, -, -, -, hpart⟩ :=
        Segment.read_eq_ok_iff.mp hread
      refine (Segment.notBare_toStep hnested hpart axis).bind fun _ _ => ?_
      exact ih.bind fun _ _ => .ok _

/-- A clause fails for its property, for having no chain, or as its chain does. -/
lemma notBare_toPath (clause : List Char) : Only Error.NotBare (toPath nested clause) := by
  rw [toPath]
  split_ifs
  · exact .error trivial
  · refine (ordinary_splitProperty _).notBare_blame.bind fun found _ => ?_
    obtain ⟨chain, property⟩ := found
    dsimp only
    split_ifs
    · exact .error trivial
    · exact (notBare_steps hnested _ _ _).bind fun _ _ => .ok _

/-- A selector fails as a whole, or as one of its clauses does. -/
lemma notBare_unionPaths (selector : List Char) :
    Only Error.NotBare (unionPaths nested selector) := by
  refine Only.bind ?_ fun clauses _ => .mapM fun clause _ => notBare_toPath hnested clause
  rw [splitUnion]
  split
  · exact .error trivial
  · split_ifs
    · exact .error trivial
    · exact .ok _

end Clause

/-- No selector is rejected for an empty segment, also not for one inside its
pseudo-classes; by induction over the length of the text. -/
theorem Selector.notBare_paths (selector : List Char) : Only Error.NotBare (paths selector) := by
  rw [paths]
  refine Clause.notBare_unionPaths (fun inner => ?_) selector
  split_ifs with hshorter
  · exact notBare_paths inner
  · exact .ok _
termination_by selector.length

end SelectorPath
