/-
Compiling a selector at byte positions.

The compiler is written once more, with every cut made at a byte position and
every byte asked for by its position. There is no outcome if a position is inside
a character or behind the end, if a depth would fall below zero, if a segment
takes up no bytes, or if a list of pieces has no first one. None of this happens:
the outcome is that of the compiler over characters, for every text.

* `Bytewise.readProperty`, `Bytewise.splitProperty`: the property of a clause,
  cut off behind `::`.
* `Bytewise.steps`: the loop over the segments of a clause, which starts again
  behind the bytes of the last one (`Bytewise.steps_place`).
* `Bytewise.paths`: the paths of a selector (`Bytewise.paths_eq`).
* `Bytewise.entries_have_outcomes`: all entry points have the outcomes that they
  have over characters.
-/
import SelectorPath.Proofs.Bytes.Step
import SelectorPath.Selector.Compiled
import SelectorPath.Template

namespace SelectorPath.Bytewise

open XPath Text

variable {text rest : List Char} {nested : Nested} {nested' : Segment.Nested}

/-! ### Properties -/

/-- The attribute names in an argument. -/
def names (argument : List Char) : Option (List String) := do
  let found ← (Text.pieces '|' argument).mapM fun piece => unquote (trim piece)
  return (found.filter (!·.isEmpty)).map String.ofList

lemma names_eq (argument : List Char) : names argument = some (Property.names argument) := by
  have hfound : ((Text.pieces '|' argument).mapM fun piece => unquote (trim piece)) =
      some ((Text.pieces '|' argument).map fun piece => Text.unquote (trim piece)) := by
    simp only [unquote_eq]
    exact List.mapM_pure
  rw [names, hfound]
  rfl

/-- The property of a name, with or without an argument. -/
def ofName (name : String) (argument : Option (List Char)) : ExceptT Cause Option Property :=
  if name = "text" then
    if argument.isSome then throw .needlessArgument else return .text
  else if name = "attr" then do
    match ← need (names (argument.getD [])) with
    | [] => throw .missingNames
    | names => return .attributes names
  else throw (.unknownProperty name)

/-- A name decides which property it is, and no cut is made for that. -/
lemma ofName_eq (name : String) (argument : Option (List Char)) :
    ofName name argument = sure (Property.ofName name argument) := by
  rw [ofName, Property.ofName]
  split_ifs
  · rfl
  · rfl
  · rw [names_eq, need_some, sure_ok_bind]
    cases Property.names (argument.getD []) <;> rfl
  · rfl

/-- The property that a text stands for. -/
def readProperty (source : List Char) : ExceptT Cause Option Property := do
  match ← need (readName (trim source) 0) with
  | none => throw .missingProperty
  | some (name, i) =>
    let (argument, j) ← readArgument (trim source) i
    if size (trim source) ≤ j then ofName (String.ofList name) argument
    else throw (.afterProperty (String.ofList name))

/-- A place is the end of a text if nothing is left there. -/
lemma size_le_place_iff (h : rest <:+ text) : size text ≤ place text rest ↔ rest = [] := by
  constructor
  · intro hle
    by_contra hne
    exact absurd (place_lt_size h hne) (Nat.not_lt.mpr hle)
  · rintro rfl
    exact Nat.le_refl _

/-- The name and the argument of a property are cut out where they begin and end. -/
lemma readProperty_eq (source : List Char) :
    readProperty source = sure (Property.read source) := by
  rw [readProperty, Property.read]
  generalize trim source = text
  have hname := readName_place (List.suffix_refl text)
  rw [place_self] at hname
  rw [hname, need_some, sure_ok_bind]
  cases hread : Text.readName text with
  | none => rfl
  | some found =>
      obtain ⟨name, after⟩ := found
      have hafter := suffix_of_readName hread
      show (readArgument text (place text after) >>= _) = sure (Argument.read after >>= _)
      rw [readArgument_place hafter]
      cases hargument : Argument.read after with
      | error cause => rfl
      | ok found =>
          obtain ⟨argument, last⟩ := found
          have hlast := (suffix_of_takes (Segment.takes_argument hargument)).trans hafter
          show (if size text ≤ place text last then _ else _) = sure (if last.isEmpty then _ else _)
          by_cases hnil : last = []
          · rw [if_pos ((size_le_place_iff hlast).mpr hnil), if_pos (by simpa using hnil),
              ofName_eq]
          · rw [if_neg (mt (size_le_place_iff hlast).mp hnil), if_neg (by simpa using hnil)]
            rfl

/-- The chain of a clause, and the property if there is one. -/
def splitProperty (source : List Char) : ExceptT Cause Option (List Char × Option Property) := do
  match ← need (lastTopLevel source) with
  | none => return (source, none)
  | some i =>
    let (chain, _) ← need (splitAt? i source)
    let (_, ending) ← need (splitAt? (i + 2) source)
    let property ← readProperty ending
    return (chain, some property)

/-- The last double colon at the top level is a boundary of the clause, and so is the
place behind it. -/
lemma splitProperty_eq (source : List Char) :
    splitProperty source = sure (Clause.splitProperty source) := by
  rw [splitProperty, lastTopLevel_eq, need_some, sure_ok_bind, Clause.splitProperty]
  cases hfound : Text.lastTopLevel [':', ':'] source with
  | none => rfl
  | some i =>
      -- what the search finds is the start of a `::`, so the chain and the property stand around it
      obtain ⟨ending, hsource⟩ := drop_of_lastExposed hfound
      have hplace : place source (source.drop i) = size (source.take i) := by
        have happend := place_append (source.take i) (source.drop i)
        rwa [List.take_append_drop] at happend
      have hchain : splitAt? (size (source.take i)) source = some (source.take i, source.drop i) :=
        splitAt?_eq_some_iff.mpr ⟨(List.take_append_drop i source).symm, rfl⟩
      have hbehind : splitAt? (size (source.take i) + 2) source =
          some (source.take i ++ [':', ':'], ending) :=
        splitAt?_eq_some_iff.mpr ⟨by rw [List.append_assoc, ← hsource], size_append _ _⟩
      have hending : source.drop (i + 2) = ending := by
        have hdrop := List.append_cancel_left ((List.take_append_drop i source).trans hsource)
        rw [← List.drop_drop, hdrop]
        rfl
      show (need (splitAt? (place source (source.drop i)) source) >>= _) = _
      rw [hplace, hchain, need_some, sure_ok_bind]
      dsimp only
      rw [hplace, hbehind, need_some, sure_ok_bind]
      dsimp only
      rw [readProperty_eq, hending]
      exact bind_eq_sure fun property _ => rfl

/-! ### The loop over the segments -/

/-- The steps of a chain from a position on. Each segment starts behind the bytes
that the one before it takes up. -/
def steps (nested : Nested) (source : String) (axis : Axis) (chain : List Char) (i : Nat) :
    ExceptT Error Option (List Step) :=
  if _h : i < size chain then do
    let (segment, consumed) ← blame source (parseAt chain i)
    let step ← toStep nested source axis segment
    if _h' : 0 < consumed then do
      let more ← steps nested source segment.combinator.axis chain (i + consumed)
      return step :: more
    else need none
  else if axis = .child then throw (.malformed source .danglingChild)
  else return []
termination_by size chain - i

/-- The steps from a place on are those of the text that is left there. -/
lemma steps_place {source : String} {axis : Axis} {chain : List Char} (h : rest <:+ chain)
    (hnested : ∀ a, a.length < rest.length → nested a = sure (nested' a)) :
    steps nested source axis chain (place chain rest) =
      sure (Clause.steps nested' source axis rest) := by
  -- on the length of what is left: a segment that is read leaves less
  induction hn : rest.length using Nat.strong_induction_on generalizing axis rest with
  | _ n ih =>
      rw [steps]
      by_cases hne : rest = []
      · subst hne
        rw [dif_neg (place_nil chain ▸ Nat.lt_irrefl _), Clause.steps_nil]
        split_ifs <;> rfl
      · rw [dif_pos (place_lt_size h hne), parseAt_place h, blame_sure]
        cases hread : Segment.read rest with
        | error cause =>
            rw [Clause.steps_of_read_eq_error hne hread]
            rfl
        | ok found =>
            obtain ⟨segment, after⟩ := found
            have hlength := Segment.length_of_read hread
            have hlt := place_lt_of_read h hread
            -- the loop adds what the segment took, which is how far the next one begins behind it
            have hnext : place chain rest + (place chain after - place chain rest) =
                place chain after := by omega
            rw [Clause.steps_of_read_eq_ok hne hread]
            show (toStep nested source axis segment >>= _) = _
            rw [toStep_eq fun a ha => hnested _ (Segment.length_argument_of_read hread ha)]
            refine bind_eq_sure fun step _ => ?_
            dsimp only
            rw [dif_pos (Nat.sub_pos_of_lt hlt), hnext,
              ih after.length (hn ▸ hlength) ((suffix_of_read hread).trans h)
                (fun a ha => hnested a (ha.trans hlength)) rfl]
            exact bind_eq_sure fun more _ => rfl

/-- The loop over the segments of a chain, by byte positions, is the recursion over what
is left of it. -/
lemma steps_eq {source : String} {axis : Axis} {chain : List Char}
    (h : ∀ a, a.length < chain.length → nested a = sure (nested' a)) :
    steps nested source axis chain 0 = sure (Clause.steps nested' source axis chain) := by
  rw [← place_self chain]
  exact steps_place (List.suffix_refl chain) h

/-! ### Clauses and unions -/

/-- The path of a clause without white space around it. -/
def pathOfTrimmed (nested : Nested) (source : List Char) : ExceptT Error Option Path := do
  let name := String.ofList source
  let (chain, property) ← blame name (splitProperty source)
  let first := Clause.splitAxis chain
  if first.2.isEmpty then throw (.malformed name .missingSegment)
  else do
    let steps ← steps nested name first.1 first.2 0
    return ⟨steps, property⟩

/-- The path of a clause. -/
def toPath (nested : Nested) (clause : List Char) : ExceptT Error Option Path :=
  if (trim clause).isEmpty then throw (.malformed (String.ofList clause) .emptySelector)
  else pathOfTrimmed nested (trim clause)

/-- The clauses of a union, without white space around them. -/
def splitUnion (selector : List Char) : ExceptT Error Option (List (List Char)) := do
  match ← need (splitTopLevel ',' selector) with
  | none => throw (.malformed (String.ofList selector) .openQuote)
  | some parts =>
    if (parts.map trim).any List.isEmpty then
      throw (.malformed (String.ofList selector) .emptySelector)
    else return parts.map trim

/-- The paths of a union, one for each clause. -/
def unionPaths (nested : Nested) (selector : List Char) : ExceptT Error Option (List Path) := do
  let clauses ← splitUnion selector
  clauses.mapM (toPath nested)

/-- The paths of a selector. The selectors inside it must be shorter. -/
def paths (selector : List Char) : ExceptT Error Option (List Path) :=
  unionPaths (fun inner => if inner.length < selector.length then paths inner else need none)
    selector
termination_by selector.length

/-- A selector is cut at commas, which are boundaries. -/
lemma splitUnion_eq (selector : List Char) :
    splitUnion selector = sure (Clause.splitUnion selector) := by
  rw [splitUnion, splitTopLevel_eq (by decide) (by decide), need_some, sure_ok_bind,
    Clause.splitUnion]
  cases Text.splitTopLevel ',' selector with
  | none => rfl
  | some parts =>
      dsimp only
      split_ifs <;> rfl

/-- A list of computations has an outcome if each of them has one. -/
lemma mapM_sure {ε α β : Type} {f : α → ExceptT ε Option β} {g : α → Except ε β} {xs : List α}
    (h : ∀ x ∈ xs, f x = sure (g x)) : xs.mapM f = sure (xs.mapM g) := by
  induction xs with
  | nil => rfl
  | cons x xs ih =>
      obtain ⟨hx, hxs⟩ := List.forall_mem_cons.mp h
      rw [List.mapM_cons, List.mapM_cons, hx, ih hxs]
      exact bind_eq_sure fun y _ => bind_eq_sure fun ys _ => rfl

/-- A clause, if the selectors inside it are compiled alike. -/
lemma toPath_eq {clause : List Char}
    (h : ∀ a, a.length < clause.length → nested a = sure (nested' a)) :
    toPath nested clause = sure (Clause.toPath nested' clause) := by
  rw [toPath, Clause.toPath]
  split_ifs
  · rfl
  · rw [pathOfTrimmed, Clause.pathOfTrimmed, splitProperty_eq, blame_sure]
    refine bind_eq_sure fun found hfound => ?_
    obtain ⟨chain, property⟩ := found
    dsimp only
    split_ifs
    · rfl
    · have hchain := Clause.length_splitProperty_le (Error.blame_eq_ok.mp hfound)
      have haxis := Clause.length_splitAxis_le chain
      have htrim := length_trim_le clause
      rw [steps_eq fun a ha => h a (by omega)]
      exact bind_eq_sure fun steps _ => rfl

/-- A selector, if the selectors inside it are compiled alike. -/
lemma unionPaths_eq {selector : List Char}
    (h : ∀ a, a.length < selector.length → nested a = sure (nested' a)) :
    unionPaths nested selector = sure (Clause.unionPaths nested' selector) := by
  rw [unionPaths, splitUnion_eq, Clause.unionPaths]
  refine bind_eq_sure fun clauses hclauses => mapM_sure fun clause hmem => toPath_eq fun a ha => ?_
  exact h a (ha.trans_le (Clause.length_le_of_mem_splitUnion hclauses clause hmem))

/-- The paths are those of the compiler over characters. -/
theorem paths_eq (selector : List Char) : paths selector = sure (Selector.paths selector) := by
  induction hn : selector.length using Nat.strong_induction_on generalizing selector with
  | _ n ih =>
      rw [paths, Selector.paths_eq]
      refine unionPaths_eq fun inner hinner => ?_
      rw [if_pos hinner]
      exact ih inner.length (hn ▸ hinner) inner rfl

/-! ### Entry points -/

/-- The selector, written from the root of the document. -/
def compile (folding : Folding) (selector : String) : ExceptT Error Option Compiled := do
  let found ← paths selector.toList
  return ⟨found.map (Path.render folding .document)⟩

/-- One clause, written from the root of the document. -/
def compileClause (folding : Folding) (clause : String) : ExceptT Error Option String := do
  let path ← toPath paths clause.toList
  return path.render folding .document

/-- The clauses of a selector. -/
def splitClauses (selector : String) : ExceptT Error Option (List String) := do
  let clauses ← splitUnion selector.toList
  return clauses.map String.ofList

/-- The segment at the front of a text, and the number of bytes that it takes
up. -/
def parse (text : String) : ExceptT Error Option (Segment × Nat) :=
  blame text (parseAt text.toList 0)

/-- The template of a selector, whose only segment takes up all its bytes. -/
def ofSelector (selector : String) : ExceptT Error Option Template := do
  let text := trim selector.toList
  let (segment, consumed) ← blame (String.ofList text) (parseAt text 0)
  if consumed < size text then throw (.malformed selector .manySegments)
  else blame selector (sure (Template.ofSegment segment []))

lemma parse_eq (text : String) : parse text = sure (Segment.parse text) := by
  have hparse := parseAt_place (List.suffix_refl text.toList)
  rw [place_self] at hparse
  rw [parse, hparse, blame_sure, Segment.parse]
  cases Segment.read text.toList with
  | error cause => rfl
  | ok found =>
      have hsize : text.utf8ByteSize = size text.toList := by
        rw [← utf8ByteSize_ofList, String.ofList_toList]
      show sure (.ok (found.1, place text.toList found.2)) =
        sure (.ok (found.1, text.utf8ByteSize - (String.ofList found.2).utf8ByteSize))
      rw [hsize, utf8ByteSize_ofList]
      rfl

/-- A template is made of the segment that is read. -/
lemma ofSelector_eq (selector : String) :
    ofSelector selector = sure (Template.ofSelector selector) := by
  rw [ofSelector, Template.ofSelector]
  generalize trim selector.toList = text
  have hparse := parseAt_place (List.suffix_refl text)
  rw [place_self] at hparse
  dsimp only
  rw [hparse, blame_sure]
  cases hread : Segment.read text with
  | error cause => rfl
  | ok found =>
      obtain ⟨segment, after⟩ := found
      show (if place text after < size text then _ else _) =
        sure (Error.blame selector (Template.ofSegment segment after))
      by_cases hnil : after = []
      · subst hnil
        rw [if_neg (place_nil text ▸ Nat.lt_irrefl _)]
        rfl
      · rw [if_pos (place_lt_size (suffix_of_read hread) hnil), Template.ofSegment,
          if_pos (by simp [hnil])]
        rfl

/-- A text is cut at valid positions only, and yet compiling a selector or a
clause, taking a selector apart, reading a segment and making a template always
come to an outcome: the value or the error that they have over characters. -/
theorem entries_have_outcomes (folding : Folding) (s : String) :
    (∀ (text : List Char) (i : Nat),
        (splitAt? i text).isSome ↔ String.Pos.Raw.IsValid (String.ofList text) ⟨i⟩) ∧
      (compile folding s).run = some (Selector.compile folding s) ∧
      (compileClause folding s).run = some (Selector.compileClause folding s) ∧
      (splitClauses s).run = some (Selector.splitClauses s) ∧
      (parse s).run = some (Segment.parse s) ∧
      (ofSelector s).run = some (Template.ofSelector s) := by
  refine ⟨fun _ _ => isSome_splitAt?_iff, ?_, ?_, ?_, ?_, ?_⟩
  · rw [compile, paths_eq, Selector.compile, Selector.compileFrom]
    cases Selector.paths s.toList <;> rfl
  · rw [compileClause, toPath_eq fun a _ => paths_eq a, Selector.compileClause, Selector.clausePath]
    cases Clause.toPath Selector.paths s.toList <;> rfl
  · rw [splitClauses, splitUnion_eq, Selector.splitClauses]
    cases Clause.splitUnion s.toList <;> rfl
  · rw [parse_eq]
    rfl
  · rw [ofSelector_eq]
    rfl

end SelectorPath.Bytewise
