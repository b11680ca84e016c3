/-
The structure of a compiled selector is the structure of its text.

An XPath engine takes a compiled selector apart at its bars and slashes. What
it finds are the clauses and segments of the selector and nothing else: no
name, value or nested selector can add a step or a branch, or take one away.

* `Selector.pieces_of_compileClause`: a compiled clause is balanced, and comes
  apart at its slashes into its translated segments.
* `Selector.compile_comes_apart`: a compiled selector comes apart at its bars
  into its clauses, and each of these at its slashes into its segments.
-/
import SelectorPath.Proofs.Selector.Solid

namespace SelectorPath.Selector

open XPath Text

/-- A compiled clause exposes no bar. Cut at its slashes, it is made of the
translated segments, none of them empty, and the property. -/
theorem pieces_of_compileClause {folding : Folding} {clause xpath : String}
    (h : compileClause folding clause = .ok xpath) :
    Balanced (· ≠ '|') xpath.toList ∧
      ∃ parsed texts, Clause.parse clause.toList = .ok parsed ∧ parsed.segments ≠ [] ∧
        parsed.segments.mapM (Segment.written folding (String.ofList (trim clause.toList))) =
            .ok texts ∧
          (∀ step ∈ parsed.axes.zip texts, step.2 ≠ "") ∧
            splitTopLevel '/' xpath.toList =
              some ((parsed.outline texts).pieces.map String.toList) := by
  obtain ⟨path, hpath, rfl⟩ : ∃ path, Clause.toPath paths clause.toList = .ok path ∧
      path.render folding .document = xpath := by
    rw [compileClause, clausePath] at h
    cases hpath : Clause.toPath paths clause.toList with
    | error e => simp [hpath, Except.map] at h
    | ok path => exact ⟨path, rfl, by simpa [hpath, Except.map] using h⟩
  have hsolid := Clause.isSolid_of_toPath isSolid_paths hpath
  obtain ⟨parsed, texts, hparse, hne, htexts, houtline⟩ := Clause.outline_of_toPath hpath folding
  refine ⟨Path.balanced_render hsolid folding .document, parsed, texts, hparse, hne, htexts, ?_, ?_⟩
  · intro step hstep
    have hbodies : Step.bodies folding path.steps = parsed.axes.zip texts := by
      obtain ⟨steps, property⟩ := path
      exact congrArg Outline.steps houtline
    rw [← hbodies, Step.bodies_eq_map] at hstep
    obtain ⟨s, hs, rfl⟩ := List.mem_map.mp hstep
    exact (hsolid s hs folding).1
  · rw [Path.render, ← houtline]
    exact Outline.splitTopLevel_render (Path.isSolid_outline hsolid folding)

/-- **A compiled selector comes apart as its text does.** At its bars, a union
from the root of the document or from the current node comes apart into its
clauses. At its slashes, each clause comes apart into the translated segments
of the clause text, with an empty piece before every step at any depth, and
the property at the end if there is one. All brackets and quotations close. -/
theorem compile_comes_apart {folding : Folding} {selector : String} {c : Compiled}
    (h : compile folding selector = .ok c) :
    splitTopLevel '|' c.xpath.toList = some (c.clauses.map String.toList) ∧
      splitTopLevel '|' c.relative.toList = some (c.clauses.map fun xpath => '.' :: xpath.toList) ∧
        ∃ clauses, splitClauses selector = .ok clauses ∧
          List.Forall₂ (fun clause xpath =>
            Balanced (fun _ => True) xpath.toList ∧
              ∃ parsed texts, Clause.parse clause.toList = .ok parsed ∧
                parsed.segments.mapM (Segment.written folding clause) = .ok texts ∧
                  splitTopLevel '/' xpath.toList =
                    some ((parsed.outline texts).pieces.map String.toList))
            clauses c.clauses := by
  rw [compile_eq] at h
  obtain ⟨clauses, hclauses, h⟩ := Error.bind_eq_ok.mp h
  obtain ⟨xpaths, hxpaths, h⟩ := Error.bind_eq_ok.mp h
  obtain rfl := Error.pure_eq_ok.mp h
  obtain ⟨hne, htrim⟩ := of_splitClauses hclauses
  have hpairs := Error.mapM_eq_ok.mp hxpaths
  -- no bar is exposed in a clause, so those that are join the clauses
  have hbalanced : ∀ xpath ∈ xpaths, Balanced (· ≠ '|') xpath.toList := by
    intro xpath hxpath
    obtain ⟨clause, -, hclause⟩ := Error.exists_of_mem_mapM hxpaths hxpath
    exact (pieces_of_compileClause hclause).1
  have hxne : xpaths ≠ [] := by
    rintro rfl
    exact hne (List.forall₂_nil_right_iff.mp hpairs)
  refine ⟨?_, ?_, clauses, hclauses, ?_⟩
  · rw [Compiled.xpath, String.toList_intercalate]
    refine splitTopLevel_intercalate (by decide) (by simpa using hxne) fun p hp => ?_
    obtain ⟨xpath, hxpath, rfl⟩ := List.mem_map.mp hp
    exact hbalanced xpath hxpath
  · have hrelative : (xpaths.map ("." ++ ·)).map String.toList =
        xpaths.map fun xpath => '.' :: xpath.toList := by
      simp
    rw [Compiled.relative, String.toList_intercalate, hrelative]
    refine splitTopLevel_intercalate (by decide) (by simpa using hxne) fun p hp => ?_
    obtain ⟨xpath, hxpath, rfl⟩ := List.mem_map.mp hp
    exact .append (.plain (by decide) (by decide)) (hbalanced xpath hxpath)
  · refine ((List.forall₂_and_left clauses xpaths).mpr ⟨htrim, hpairs⟩).imp ?_
    rintro clause xpath ⟨hclause, hxpath⟩
    obtain ⟨hbar, parsed, texts, hparse, -, htexts, -, hpieces⟩ := pieces_of_compileClause hxpath
    rw [hclause, String.ofList_toList] at htexts
    exact ⟨hbar.mono fun _ _ => trivial, parsed, texts, hparse, htexts, hpieces⟩

/-- Slashes, bars, brackets and both quotation marks in a value, with a union
inside a pseudo-class. -/
theorem compile_comes_apart_hostile :
    ∃ c, compile .lowerCase "a[t=x\"]|/'\"] b:not(c, > d)::text, > p" = .ok c ∧
      c.clauses = ["//a[@t=concat(\"x\", '\"', \"]|/'\", '\"', \"\")]" ++
        "//b[not(self::c) and not(self::d)]/text()", "/p"] ∧
      splitTopLevel '|' c.xpath.toList = some (c.clauses.map String.toList) := by
  have h : compile .lowerCase "a[t=x\"]|/'\"] b:not(c, > d)::text, > p" =
      .ok ⟨["//a[@t=concat(\"x\", '\"', \"]|/'\", '\"', \"\")]" ++
        "//b[not(self::c) and not(self::d)]/text()", "/p"]⟩ := by
    decide +kernel
  exact ⟨_, h, rfl, (compile_comes_apart h).1⟩

end SelectorPath.Selector
