/-
What the combinators of a clause mean in a document.

A compiled clause is a location path, and an XPath engine evaluates it from the
root, step by step. What it arrives at are the elements at the end of a chain
of elements, one for each segment, that are placed as the combinators say.

* `Combinator.Relates`, `Clause.Matches`: chains of elements for the segments
  of a clause.
* `Clause.linked_iff_matches`: the same chains, seen along the path.
* `Clause.axis_of_parse`: only a leading `>` keeps the first step at the top.
* `Selector.evaluate_compileClause`: evaluating a compiled clause gives the ends
  of the chains.
-/
import SelectorPath.Proofs.Selector.Structure
import SelectorPath.Proofs.XPath.Location

namespace SelectorPath

open XPath Text

/-- How a combinator places an element with respect to the one before it. -/
def Combinator.Relates (t : Tree) : Combinator → Address → Address → Prop
  | .child => t.IsChild
  | .descendant => t.IsDescendant

/-- A combinator relates an element to those along its axis. -/
lemma Combinator.relates_iff_along {t : Tree} {combinator : Combinator} {a b : Address} :
    combinator.Relates t a b ↔ t.Along combinator.axis a b := by
  cases combinator <;> exact Iff.rfl

namespace Clause

/-- Elements for the segments of a clause, one for each in order. A segment
stands for the set of its translated text. -/
structure Matches (t : Tree) (sets : String → Set Address) (atTop : Prop)
    (segments : List Segment) (texts : List String) (es : List Address) : Prop where
  /-- Every element is in the set of its segment. -/
  chosen : List.Forall₂ (fun text e => t.IsElement e ∧ e ∈ sets text) texts es
  /-- Every element is placed as the combinator of the segment before says. -/
  placed : (segments.zip es).IsChain fun p q => p.1.combinator.Relates t p.2 q.2
  /-- The first element is a child of the root, if it has to be. -/
  first : atTop → ∀ e ∈ es.head?, t.IsChild [] e

variable {t : Tree} {sets : String → Set Address}

/-- The elements after the first one are placed, and the first of them is
where the first combinator says. -/
lemma isChain_zip_cons {seg : Segment} {segs : List Segment} {e : Address} {es : List Address}
    (hlen : segs.length = es.length) :
    (((seg :: segs).zip (e :: es)).IsChain fun p q => p.1.combinator.Relates t p.2 q.2) ↔
      (∀ e' ∈ es.head?, seg.combinator.Relates t e e') ∧
        (segs.zip es).IsChain fun p q => p.1.combinator.Relates t p.2 q.2 := by
  cases es with
  | nil => simp
  | cons e' es =>
      obtain ⟨seg', segs', rfl⟩ : ∃ seg' segs', segs = seg' :: segs' :=
        List.exists_cons_of_length_eq_add_one hlen
      simp [List.isChain_cons_cons]

/-- The nodes that the steps of the segments are taken to are elements in the
sets of the segments, placed by the combinators. -/
lemma linked_iff {segs : List Segment} {texts : List String} (hlen : segs.length = texts.length)
    {axis : Axis} {a : Address} {es : List Address} :
    t.Linked sets a ((axis :: segs.map (·.combinator.axis)).zip texts) es ↔
      List.Forall₂ (fun text e => t.IsElement e ∧ e ∈ sets text) texts es ∧
        ((segs.zip es).IsChain fun p q => p.1.combinator.Relates t p.2 q.2) ∧
          ∀ e ∈ es.head?, t.Along axis a e := by
  -- the axis of a step is the combinator of the segment before, so both move on
  induction segs generalizing texts axis a es with
  | nil =>
      obtain rfl : texts = [] := List.eq_nil_of_length_eq_zero hlen.symm
      rw [List.zip_nil_right, Tree.Linked, List.forall₂_nil_left_iff]
      constructor
      · rintro rfl
        simp
      · exact fun h => h.1
  | cons seg segs ih =>
      obtain ⟨text, texts, rfl⟩ := List.exists_cons_of_length_eq_add_one hlen.symm
      have hrest : segs.length = texts.length := Nat.succ.inj hlen
      cases es with
      | nil => simp [Tree.Linked]
      | cons e es =>
          constructor
          · rintro ⟨halong, hset, hlinked⟩
            obtain ⟨hchosen, hplaced, hfirst⟩ := (ih hrest).mp hlinked
            refine ⟨.cons ⟨halong.isElement, hset⟩ hchosen, ?_, by simpa using halong⟩
            refine (isChain_zip_cons (hrest.trans hchosen.length_eq)).mpr ⟨?_, hplaced⟩
            exact fun e' he' => Combinator.relates_iff_along.mpr (hfirst e' he')
          · rintro ⟨hchosen, hplaced, hfirst⟩
            obtain ⟨⟨-, hset⟩, hchosen⟩ := List.forall₂_cons.mp hchosen
            obtain ⟨hnext, hplaced⟩ :=
              (isChain_zip_cons (hrest.trans hchosen.length_eq)).mp hplaced
            refine ⟨hfirst e rfl, hset, (ih hrest).mpr ⟨hchosen, hplaced, ?_⟩⟩
            exact fun e' he' => Combinator.relates_iff_along.mp (hnext e' he')

/-- From the root, at any depth is wherever there is an element. -/
lemma linked_iff_matches {parsed : Parsed} {texts : List String} {atTop : Prop}
    (hlen : parsed.segments.length = texts.length) (hatTop : parsed.axis = .child ↔ atTop)
    {es : List Address} :
    t.Linked sets [] (parsed.axes.zip texts) es ↔
      Matches t sets atTop parsed.segments texts es := by
  rw [Parsed.axes, linked_iff hlen]
  constructor
  · rintro ⟨hchosen, hplaced, hfirst⟩
    refine ⟨hchosen, hplaced, fun htop e he => ?_⟩
    have halong := hfirst e he
    rwa [hatTop.mpr htop] at halong
  · rintro ⟨hchosen, hplaced, hfirst⟩
    refine ⟨hchosen, hplaced, fun e he => ?_⟩
    cases haxis : parsed.axis with
    | child => exact hfirst (hatTop.mp haxis) e he
    | descendant =>
        refine Tree.isDescendant_root_iff.mpr ?_
        cases hchosen with
        | nil => simp at he
        | cons hhead _ =>
            obtain rfl := Option.some.inj he
            exact hhead.1

/-- Without a property, the first step is at the top just when the clause
starts with `>`. -/
lemma axis_of_parse {clause : List Char} {parsed : Parsed} (h : parse clause = .ok parsed)
    (hproperty : parsed.property = none) :
    parsed.axis = .child ↔ (trim clause).head? = some '>' := by
  obtain ⟨⟨chain, property⟩, hsplit, h⟩ := Error.bind_eq_ok.mp h
  obtain ⟨segs, -, h⟩ := Error.bind_eq_ok.mp h
  obtain rfl := Error.pure_eq_ok.mp h
  obtain rfl : property = none := hproperty
  obtain rfl : trim clause = chain := by
    rw [splitProperty] at hsplit
    split at hsplit
    · obtain ⟨property, -, hret⟩ := Error.bind_eq_ok.mp hsplit
      have hsome := (Prod.mk.inj (Error.pure_eq_ok.mp hret)).2
      simp at hsome
    · simpa using hsplit
  show (splitAxis (trim clause)).1 = .child ↔ _
  rw [splitAxis, trim_trim]
  split
  · next heq => simp [heq]
  · next hne =>
      cases htrim : trim clause with
      | nil => simp
      | cons c rest =>
          have hc : c ≠ '>' := by
            rintro rfl
            exact hne rest htrim
          simpa using hc

end Clause

/-- **Combinators keep their meaning.** Let a text stand for a set of elements,
for every text of a step. In any document, the path of a clause without a
property leads to the elements `e` for which there are elements, one in the
set of each segment and `e` the last, such that each is a child or a proper
descendant of the one before, as the combinator between the segments says, and
the first one is a child of the root if the clause starts with `>`. -/
theorem Selector.evaluate_compileClause {folding : Folding} {clause xpath : String}
    (h : compileClause folding clause = .ok xpath) :
    ∃ parsed texts, Clause.parse clause.toList = .ok parsed ∧
      parsed.segments.mapM (Segment.written folding (String.ofList (trim clause.toList))) =
          .ok texts ∧
        (parsed.property = none → ∀ (t : Tree) (sets : String → Set Address),
          t.evaluate sets xpath = some {e | ∃ es,
            Clause.Matches t sets ((trim clause.toList).head? = some '>')
              parsed.segments texts es ∧ es.getLast? = some e}) := by
  obtain ⟨-, parsed, texts, hparse, hne, htexts, hfull, hpieces⟩ := pieces_of_compileClause h
  refine ⟨parsed, texts, hparse, htexts, fun hproperty t sets => ?_⟩
  have hread : Location.read xpath = some (parsed.axes.zip texts) :=
    Location.read_of_pieces hpieces (by simp [Clause.Parsed.outline, hproperty]) hfull
  have hlen : parsed.segments.length = texts.length := (Error.mapM_eq_ok.mp htexts).length_eq
  have hatTop := Clause.axis_of_parse hparse hproperty
  -- there is a segment, so the last element of the chain is never the root
  have hlast : ∀ es : List Address, List.Forall₂ (fun text e => t.IsElement e ∧ e ∈ sets text)
      texts es → ([] :: es).getLast? = es.getLast? := by
    intro es hchosen
    cases es with
    | nil =>
        rw [List.forall₂_nil_right_iff.mp hchosen] at hlen
        exact absurd (List.eq_nil_of_length_eq_zero hlen) hne
    | cons e es => exact List.getLast?_cons_cons
  rw [Tree.evaluate, hread, Option.map_some]
  refine congrArg some (Set.ext fun e => ?_)
  rw [Tree.mem_walk_iff]
  constructor
  · rintro ⟨a, rfl, es, hlinked, hend⟩
    have hmatches := (Clause.linked_iff_matches hlen hatTop).mp hlinked
    exact ⟨es, hmatches, by rwa [hlast es hmatches.chosen] at hend⟩
  · rintro ⟨es, hmatches, hend⟩
    refine ⟨[], rfl, es, (Clause.linked_iff_matches hlen hatTop).mpr hmatches, ?_⟩
    rwa [hlast es hmatches.chosen]

/-- Below the root of this document stands `[0]`, below that `[0, 0]` and
`[0, 1]`, and below `[0, 0]` stands `[0, 0, 0]`. Of the two elements in the set
of the last segment, one is not below an element for the segment before. -/
theorem Selector.evaluate_compileClause_placed :
    let t : Tree := .node [.node [.node [.node []], .node []]]
    let sets : String → Set Address := fun text =>
      if text = "a" then {[0]} else if text = "b" then {[0, 0]} else {[0, 0, 0], [0, 1]}
    compileClause .ascii "> a b > c" = .ok "/a//b/c" ∧
      t.evaluate sets "/a//b/c" = some {[0, 0, 0]} := by
  intro t sets
  have hcompile : compileClause .ascii "> a b > c" = .ok "/a//b/c" := by decide +kernel
  obtain ⟨parsed, texts, hparse, htexts, heval⟩ := evaluate_compileClause hcompile
  have hparts : (Clause.parse "> a b > c".toList).map (fun p => (p.segments, p.property)) =
      .ok ([{ tag := some (.named "a") }, { tag := some (.named "b"), combinator := .child },
        { tag := some (.named "c") }], none) := by
    decide +kernel
  rw [hparse] at hparts
  obtain ⟨hsegments, hproperty⟩ := Prod.mk.inj (Except.ok.inj hparts)
  have hwritten : parsed.segments.mapM (Segment.written .ascii
      (String.ofList (trim "> a b > c".toList))) = .ok ["a", "b", "c"] := by
    rw [hsegments]
    decide +kernel
  obtain rfl := Except.ok.inj (htexts.symm.trans hwritten)
  refine ⟨hcompile, (heval hproperty t sets).trans (congrArg some (Set.ext fun e => ?_))⟩
  rw [hsegments, Set.mem_singleton_iff]
  constructor
  · rintro ⟨es, hmatches, hend⟩
    obtain ⟨e₁, es₁, -, h₁, rfl⟩ := List.forall₂_cons_left_iff.mp hmatches.chosen
    obtain ⟨e₂, es₂, ⟨-, hb⟩, h₂, rfl⟩ := List.forall₂_cons_left_iff.mp h₁
    obtain ⟨e₃, es₃, ⟨-, hc⟩, h₃, rfl⟩ := List.forall₂_cons_left_iff.mp h₂
    obtain rfl := List.forall₂_nil_left_iff.mp h₃
    have hplaced := (List.isChain_cons_cons.mp (List.isChain_cons_cons.mp hmatches.placed).2).1
    obtain ⟨i, rfl, -⟩ : t.IsChild e₂ e₃ := hplaced
    obtain rfl : e₂ = [0, 0] := hb
    obtain rfl : i = 0 := by simpa [sets] using hc
    exact (Option.some.inj hend).symm
  · rintro rfl
    refine ⟨[[0], [0, 0], [0, 0, 0]], ⟨?_, ?_, ?_⟩, rfl⟩
    · exact .cons ⟨⟨by simp, rfl⟩, rfl⟩ (.cons ⟨⟨by simp, rfl⟩, rfl⟩
        (.cons ⟨⟨by simp, rfl⟩, .inl rfl⟩ .nil))
    · exact .cons_cons (.single ⟨0, rfl, rfl⟩) (.cons_cons ⟨0, rfl, rfl⟩ (.singleton _))
    · intro _ e he
      obtain rfl := Option.some.inj he
      exact ⟨0, rfl, rfl⟩

end SelectorPath
