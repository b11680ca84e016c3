/-
Unions of selectors.

A comma joins two selectors into one. The clauses of the whole are the clauses
of the two parts, provided that the comma is seen: a bracket that the first
part leaves open hides it. Such a bracket can stand in a value, as in `[a=(]`,
where it means nothing to the test it stands in.

* `Selector.compile_eq_ok`: what it takes for a selector to compile.
* `Selector.compile_union_iff`: when a union compiles to the clauses of its two
  parts.
* `Selector.compile_union_open`: two selectors whose union does not compile.
-/
import SelectorPath.Proofs.Selector.Parsed
import SelectorPath.Proofs.Text.Passes

namespace SelectorPath.Selector

open XPath Text

/-- An empty clause does not compile. -/
lemma trim_ne_nil_of_compileClause {folding : Folding} {piece : List Char} {xpath : String}
    (h : compileClause folding (String.ofList (trim piece)) = .ok xpath) : trim piece ≠ [] := by
  intro hempty
  rw [compileClause_ofList, Clause.toPath, trim_trim, hempty] at h
  simp [Except.map] at h

/-- A selector compiles if it comes apart into pieces that do. -/
theorem compile_eq_ok {folding : Folding} {selector : String} {c : Compiled} :
    compile folding selector = .ok c ↔
      ∃ pieces, splitTopLevel ',' selector.toList = some pieces ∧
        List.Forall₂ (fun piece xpath =>
          compileClause folding (String.ofList (trim piece)) = .ok xpath) pieces c.clauses := by
  have hpieces : ∀ (pieces : List (List Char)) (xpaths : List String),
      ((pieces.map trim).map String.ofList).mapM (compileClause folding) = .ok xpaths ↔
        List.Forall₂ (fun piece xpath =>
          compileClause folding (String.ofList (trim piece)) = .ok xpath) pieces xpaths := by
    intro pieces xpaths
    rw [Error.mapM_eq_ok, List.map_map, List.forall₂_map_left_iff]
    rfl
  rw [compile_eq, splitClauses, Clause.splitUnion]
  constructor
  · intro h
    obtain ⟨clauses, hclauses, h⟩ := Error.bind_eq_ok.mp h
    obtain ⟨xpaths, hxpaths, h⟩ := Error.bind_eq_ok.mp h
    obtain rfl := Error.pure_eq_ok.mp h
    cases hsplit : splitTopLevel ',' selector.toList with
    | none => simp [hsplit, Except.map] at hclauses
    | some pieces =>
        rw [hsplit] at hclauses
        dsimp only at hclauses
        split_ifs at hclauses
        · simp [Except.map] at hclauses
        · obtain rfl := Except.ok.inj hclauses
          exact ⟨pieces, rfl, (hpieces pieces xpaths).mp hxpaths⟩
  · rintro ⟨pieces, hsplit, hcompiled⟩
    -- a clause that compiles is not blank, so the pieces pass the check for empty ones
    have hfull : ∀ piece ∈ pieces, trim piece ≠ [] :=
      ((List.forall₂_and_left pieces c.clauses).mp
        (hcompiled.imp fun _ _ h => ⟨trim_ne_nil_of_compileClause h, h⟩)).1
    have hany : (pieces.map trim).any List.isEmpty = false := by
      simpa [List.any_eq_false] using hfull
    rw [hsplit]
    dsimp only
    rw [if_neg (by simp only [hany, Bool.false_eq_true, not_false_iff])]
    exact Error.bind_eq_ok.mpr ⟨_, rfl, Error.bind_eq_ok.mpr
      ⟨c.clauses, (hpieces pieces c.clauses).mpr hcompiled, rfl⟩⟩

/-- **When unions compose.** Two selectors that compile on their own compile,
joined by a comma, to the clauses of the first followed by the clauses of the
second, exactly when the first one leaves no bracket open. -/
theorem compile_union_iff {folding : Folding} {first second : String} {a b : Compiled}
    (ha : compile folding first = .ok a) (hb : compile folding second = .ok b) :
    compile folding (first ++ "," ++ second) = .ok ⟨a.clauses ++ b.clauses⟩ ↔
      (Nesting.top.after first.toList).depth = 0 := by
  obtain ⟨_, hsplit₁, hfirst⟩ := compile_eq_ok.mp ha
  obtain ⟨_, hsplit₂, hsecond⟩ := compile_eq_ok.mp hb
  obtain ⟨⟨piece, more⟩, hcut₁, rfl⟩ := Option.map_eq_some_iff.mp hsplit₁
  obtain ⟨⟨next, others⟩, hcut₂, rfl⟩ := Option.map_eq_some_iff.mp hsplit₂
  rw [cutTopLevel] at hcut₁ hcut₂
  have hlist : (first ++ "," ++ second).toList = first.toList ++ ',' :: second.toList := by
    simp
  rw [compile_eq_ok, hlist, splitTopLevel, cutTopLevel]
  constructor
  · rintro ⟨_, hsplit, hboth⟩
    obtain ⟨⟨whole, pieces⟩, hcut, rfl⟩ := Option.map_eq_some_iff.mp hsplit
    -- a comma inside a group joins two pieces to one, so there are fewer than both have
    by_contra hopen
    have hfewer := length_cut_append_delimiter_le (by decide) hopen hcut₁ hcut₂ hcut
    have hlen₁ := hfirst.length_eq
    have hlen₂ := hsecond.length_eq
    have hlen := hboth.length_eq
    simp only [List.length_cons, List.length_append] at hlen₁ hlen₂ hlen
    omega
  · intro hdepth
    -- quotations are closed at the end anyway, so the comma is at the top level
    have hclosed := Nesting.eq_top hdepth (quote_after_of_cut hcut₁)
    refine ⟨(piece :: more) ++ (next :: others), ?_, ?_⟩
    · rw [cut_append_delimiter (by decide) hclosed hcut₁ hcut₂]
      rfl
    · exact List.rel_append hfirst hsecond

/-- A union under a selector with a group and commas of its own. -/
theorem compile_union_iff_nested :
    compile .ascii "a:not(b, c)" = .ok ⟨["//a[not(self::b) and not(self::c)]"]⟩ ∧
      compile .ascii "d, > e" = .ok ⟨["//d", "/e"]⟩ ∧
        compile .ascii ("a:not(b, c)" ++ "," ++ "d, > e") =
          .ok ⟨["//a[not(self::b) and not(self::c)]", "//d", "/e"]⟩ := by
  have ha : compile .ascii "a:not(b, c)" = .ok ⟨["//a[not(self::b) and not(self::c)]"]⟩ := by
    decide +kernel
  have hb : compile .ascii "d, > e" = .ok ⟨["//d", "/e"]⟩ := by decide +kernel
  exact ⟨ha, hb, (compile_union_iff ha hb).mpr (by decide +kernel)⟩

/-- The parenthesis in `[a=(]` is a part of the value, but it hides the comma
of a union from the pass that looks for it. -/
theorem compile_union_open :
    compile .lowerCase "[a=(]" = .ok ⟨["//*[@a=\"(\"]"]⟩ ∧
      compile .lowerCase "b" = .ok ⟨["//b"]⟩ ∧
        compile .lowerCase ("[a=(]" ++ "," ++ "b") =
          .error (.malformed "[a=(],b" (.unexpected ',')) := by
  refine ⟨?_, ?_, ?_⟩ <;> decide +kernel

end SelectorPath.Selector
