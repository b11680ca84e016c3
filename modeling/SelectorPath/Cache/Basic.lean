/-
The cache of compiled clauses.

A clause is filed under its text without white space around it. Compiling a
clause through the cache is two steps, since others may write in between: the
clause is looked up, and if it was not there its compiled form is published.
What was published first stays.

* `Cache.lookup`, `Cache.publish`: the two steps.
* `Cache.replace`, `Cache.extend`, `Cache.clear`: the contents as a whole.
* `Cache.pairs`: the contents in increasing order of the clauses.
* `Cache.Stats`: how often a clause was there. The counts are natural numbers, as if
  there were fewer than `2 ^ 64` lookups: none of them wraps around.
-/
import SelectorPath.Selector.Compiled
import Std.Data.ExtTreeMap

namespace SelectorPath

open XPath

/-- Compiled clauses by their text. -/
abbrev Entries := Std.ExtTreeMap String String

/-- A cache of compiled clauses. -/
structure Cache where
  /-- How the clauses are compiled. -/
  folding : Folding
  /-- The compiled clauses. -/
  entries : Entries
  /-- How many lookups have found a clause. -/
  hits : Nat
  /-- How many lookups have not. -/
  misses : Nat

namespace Cache

/-- A cache without contents. -/
def empty (folding : Folding) : Cache := ⟨folding, ∅, 0, 0⟩

/-- What a clause is filed under. -/
def key (clause : String) : String := String.ofList (Text.trim clause.toList)

/-- The compiled form of a clause, if it is there. -/
def find? (c : Cache) (clause : String) : Option String := c.entries[key clause]?

/-- The compiled form filed under a key, if it is there. The question is
counted either way. -/
def lookup (c : Cache) (k : String) : Option String × Cache :=
  match c.entries[k]? with
  | some xpath => (some xpath, { c with hits := c.hits + 1 })
  | none => (none, { c with misses := c.misses + 1 })

/-- Files a compiled form unless the key has one already, and gives the form
that is filed now. -/
def publish (c : Cache) (k xpath : String) : String × Cache :=
  match c.entries[k]? with
  | some existing => (existing, c)
  | none => (xpath, { c with entries := c.entries.insert k xpath })

/-- The number of compiled clauses. -/
def size (c : Cache) : Nat := c.entries.size

/-- The contents, in increasing order of the clauses. -/
def pairs (c : Cache) : List (String × String) := c.entries.toList

/-- The contents that a list of pairs describes; of two pairs with one key the
later counts. -/
def entriesOf (pairs : List (String × String)) : Entries :=
  pairs.foldl (fun entries pair => entries.insert pair.1 pair.2) ∅

/-- The cache with other contents. -/
def replace (c : Cache) (pairs : List (String × String)) : Cache :=
  { c with entries := entriesOf pairs }

/-- Contents with one more pair, unless its key is there already, and how many
pairs have been added so far. -/
def add (sofar : Nat × Entries) (pair : String × String) : Nat × Entries :=
  if pair.1 ∈ sofar.2 then sofar else (sofar.1 + 1, sofar.2.insert pair.1 pair.2)

/-- The cache with further pairs, where their keys are new, and the number of
pairs that went in. -/
def extend (c : Cache) (pairs : List (String × String)) : Nat × Cache :=
  let sum := pairs.foldl add (0, c.entries)
  (sum.1, { c with entries := sum.2 })

/-- The cache without contents. The counts are kept. -/
def clear (c : Cache) : Cache := { c with entries := ∅ }

/-- How often clauses were found, and how many there are. -/
structure Stats where
  /-- How many clauses were found. -/
  hits : Nat
  /-- How many clauses were not. -/
  misses : Nat
  /-- The number of compiled clauses. -/
  entries : Nat
  deriving DecidableEq

/-- The part of all questions that were answered from the cache, zero if there
were none. -/
def Stats.hitRatio (s : Stats) : Float :=
  if s.hits + s.misses = 0 then 0 else Float.ofNat s.hits / Float.ofNat (s.hits + s.misses)

/-- The figures of a cache. -/
def stats (c : Cache) : Stats := ⟨c.hits, c.misses, c.size⟩

/-! ### What the two steps of compiling do to the contents -/

@[simp] theorem fst_lookup (c : Cache) (k : String) : (c.lookup k).1 = c.entries[k]? := by
  rw [lookup]
  split <;> simp_all

/-- Looking a key up changes the counts only. -/
@[simp] theorem entries_lookup (c : Cache) (k : String) :
    (c.lookup k).2.entries = c.entries := by
  rw [lookup]
  split <;> rfl

/-- What was published first is what is told. -/
theorem fst_publish (c : Cache) (k xpath : String) :
    (c.publish k xpath).1 = (c.entries[k]?).getD xpath := by
  rw [publish]
  split <;> simp_all

/-- After publishing, the key has a form, and every other key is as before. -/
theorem getElem?_publish (c : Cache) (k xpath k' : String) :
    (c.publish k xpath).2.entries[k']? =
      if k' = k then some ((c.entries[k]?).getD xpath) else c.entries[k']? := by
  rw [publish]
  split
  · next h =>
    split
    · next heq => rw [heq, h, Option.getD_some]
    · rfl
  · next h =>
    rw [Std.ExtTreeMap.getElem?_insert]
    by_cases heq : k' = k
    · simp [heq, h]
    · simp [heq, Ne.symm heq]

end Cache

end SelectorPath
