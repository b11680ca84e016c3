/-
Records of what a cache and its users do.

* `Record`: what can be recorded.
* `Record.level`, `Record.message`: its weight and its wording.
-/
import SelectorPath.Text.Quoted

namespace SelectorPath

/-- The weight of a record. -/
inductive Level where
  | trace
  | debug
  | warn
  deriving DecidableEq

/-- Something that happened. -/
inductive Record where
  /-- A clause was found in the cache. -/
  | hit (clause : String)
  /-- A clause was compiled. -/
  | compiled (clause xpath : String)
  /-- The contents of the cache were replaced by so many clauses. -/
  | replaced (n : Nat)
  /-- So many clauses were added to the cache. -/
  | extended (n : Nat)
  /-- The cache was emptied. -/
  | cleared
  /-- An expression is given to the provider. -/
  | evaluating (xpath : String)
  /-- The lock of the cache was taken although a writer had failed under it. -/
  | recovered
  deriving DecidableEq

namespace Record

/-- The weight of a record. -/
def level : Record → Level
  | .hit _ => .trace
  | .compiled _ _ | .replaced _ | .extended _ | .cleared | .evaluating _ => .debug
  | .recovered => .warn

/-- The wording of a record. -/
def message : Record → String
  | .hit clause => "selector cache hit: " ++ Text.quoted clause
  | .compiled clause xpath => "compiled selector " ++ Text.quoted clause ++ " -> " ++ xpath
  | .replaced n => "selector cache replaced with " ++ toString n ++ " entries"
  | .extended n => "selector cache extended with " ++ toString n ++ " entries"
  | .cleared => "selector cache cleared"
  | .evaluating xpath => "evaluating " ++ xpath
  | .recovered => "selector cache lock poisoned, recovering"

end Record

end SelectorPath
