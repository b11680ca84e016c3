/-
Compiled selectors, the texts that an XPath engine is given.

* `Selector.compileFrom`: the paths of a selector, written from an anchor.
* `Compiled`: the written clauses of a union, with its two forms.
* `Selector.compile`, `Selector.compileClause`: a whole selector, and a single
  clause.
* `Selector.splitClauses`: the clauses of a selector, not yet compiled.
-/
import SelectorPath.Selector.Union

namespace SelectorPath

open XPath

/-- The written clauses of a union. -/
structure Compiled where
  /-- The clauses, each from the root of the document. -/
  clauses : List String
  deriving DecidableEq

namespace Compiled

/-- The union from the root of the document. -/
def xpath (c : Compiled) : String := "|".intercalate c.clauses

/-- The union from the current node. -/
def relative (c : Compiled) : String := "|".intercalate (c.clauses.map ("." ++ ·))

end Compiled

namespace Selector

/-- The clauses of a selector, without white space around them. -/
def splitClauses (selector : String) : Except Error (List String) :=
  (Clause.splitUnion selector.toList).map (·.map String.ofList)

/-- The clauses of a selector, written from an anchor. -/
def compileFrom (folding : Folding) (anchor : Anchor) (selector : String) :
    Except Error (List String) :=
  (paths selector.toList).map (·.map (Path.render folding anchor))

/-- The selector, written from the root of the document. -/
def compile (folding : Folding) (selector : String) : Except Error Compiled :=
  (compileFrom folding .document selector).map Compiled.mk

/-- One clause, written from the root of the document. -/
def compileClause (folding : Folding) (clause : String) : Except Error String :=
  (clausePath clause.toList).map (Path.render folding .document)

end Selector

end SelectorPath
