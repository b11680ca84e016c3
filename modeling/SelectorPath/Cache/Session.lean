/-
Using a cache behind its lock.

Every use takes the lock once, or twice when a clause has to be compiled: once
to look it up and once to publish it. A writer that fails while it holds the
lock leaves it poisoned. What the writer had done by then stands, and whoever
takes the lock later goes on with it, at the price of a warning.

Several selectors may be compiled at once, with their uses of the lock in any order.
As a use of the cache (`Op.warm`) they are compiled one after the other. The results,
the contents and the number of lookups are the same in every order
(`Batch.schedule_independent`, `compileAll_agrees`); only how many of the lookups find
something is not, and where this is asked for there is `Session.compileAll`, which is
told the order.

* `Session`: a cache, the state of its lock, and the records so far.
* `Session.compileClause`, `Session.compile`: compiling through the cache.
* `Session.Op`, `Session.Reply`, `Session.perform`: the uses and their answers.
* `Session.step`: one use, with the records it leaves.
-/
import SelectorPath.Cache.Basic
import SelectorPath.Cache.Record

namespace SelectorPath

open XPath

/-- A cache in use. -/
structure Session where
  /-- The cache. -/
  cache : Cache
  /-- A writer has failed under the lock. -/
  poisoned : Bool := false
  /-- What has been recorded, in order. -/
  log : List Record := []

namespace Session

/-- A use of the cache. -/
abbrev Action := StateM Session

/-- Records something. -/
def record (r : Record) : Action Unit := modify fun s => { s with log := s.log ++ [r] }

/-- Takes the lock. -/
def lock : Action Unit := do
  if (← get).poisoned then record .recovered

/-- The cache as it stands. -/
def cached : Action Cache := return (← get).cache

/-- Puts the cache into another state. -/
def setCache (cache : Cache) : Action Unit := modify fun s => { s with cache }

/-- Reads from the cache under the lock. -/
def reading {α : Type} (f : Cache → α) : Action α := do
  lock
  return f (← cached)

/-- Changes the cache under the lock. -/
def writing {α : Type} (f : Cache → α × Cache) : Action α := do
  lock
  let result := f (← cached)
  setCache result.2
  return result.1

/-- Adds pairs whose keys are new, and gives their number. -/
def extend (pairs : List (String × String)) : Action Nat := do
  let n ← writing (·.extend pairs)
  record (.extended n)
  return n

/-- Replaces the contents. They are put together before the lock is taken. -/
def replace (pairs : List (String × String)) : Action Unit := do
  record (.replaced (Cache.entriesOf pairs).size)
  writing fun c => ((), c.replace pairs)

/-- Empties the cache. -/
def clear : Action Unit := do
  writing fun c => ((), c.clear)
  record .cleared

/-- A writer that adds pairs and fails before it is done. -/
def failExtend (pairs : List (String × String)) : Action Unit := do
  let _ ← writing (·.extend pairs)
  modify fun s => { s with poisoned := true }

/-- Compiles a clause through the cache. Between the two times the lock is
taken, others act. -/
def compileClauseAmid (others : Action Unit) (clause : String) :
    Action (Except Error String) := do
  let k := Cache.key clause
  match ← writing (·.lookup k) with
  | some xpath =>
    record (.hit k)
    return .ok xpath
  | none =>
    match Selector.compileClause (← cached).folding k with
    | .error e => return .error e
    | .ok xpath =>
      record (.compiled k xpath)
      others
      return .ok (← writing (·.publish k xpath))

/-- Compiles a clause through the cache. -/
def compileClause (clause : String) : Action (Except Error String) :=
  compileClauseAmid (pure ()) clause

/-- Compiles clauses in order, up to the first that fails. -/
def compileClauses : List String → Action (Except Error (List String))
  | [] => return .ok []
  | clause :: more => do
    match ← compileClause clause with
    | .error e => return .error e
    | .ok xpath => return (← compileClauses more).map (xpath :: ·)

/-- Compiles a selector through the cache, clause by clause. -/
def compile (selector : String) : Action (Except Error Compiled) :=
  match Selector.splitClauses selector with
  | .error e => return .error e
  | .ok clauses => return (← compileClauses clauses).map Compiled.mk

/-- The uses of a cache. -/
inductive Op where
  /-- Compile a selector. -/
  | compile (selector : String)
  /-- Compile a clause. -/
  | compileClause (clause : String)
  /-- Look for a clause, without compiling it. -/
  | find (clause : String)
  /-- Ask for a clause. -/
  | contains (clause : String)
  /-- Ask for any contents. -/
  | isEmpty
  /-- Count the contents. -/
  | size
  /-- List the contents. -/
  | pairs
  /-- Ask for the figures. -/
  | stats
  /-- Ask how clauses are compiled. -/
  | folding
  /-- Empty the cache. -/
  | clear
  /-- Replace the contents. -/
  | replace (pairs : List (String × String))
  /-- Add pairs whose keys are new. -/
  | extend (pairs : List (String × String))
  /-- Replace the contents by themselves. -/
  | reload
  /-- Add pairs and fail while holding the lock. -/
  | failExtend (pairs : List (String × String))
  /-- Compile a clause while another writer adds a pair before the compiled
  form is published. -/
  | compileClauseRaced (clause : String) (rival : String × String)
  /-- Compile several selectors, one after the other. -/
  | warm (selectors : List String)

/-- The answers of a cache. -/
inductive Reply where
  /-- Nothing to tell. -/
  | done
  /-- The use has failed. -/
  | failed
  /-- A compiled selector, or why there is none. -/
  | compiled (result : Except Error Compiled)
  /-- A compiled clause, or why there is none. -/
  | xpath (result : Except Error String)
  /-- A compiled clause, if it is there. -/
  | found (xpath : Option String)
  /-- Yes or no. -/
  | truth (b : Bool)
  /-- A number. -/
  | count (n : Nat)
  /-- The contents. -/
  | pairs (pairs : List (String × String))
  /-- The figures. -/
  | stats (stats : Cache.Stats)
  /-- How clauses are compiled. -/
  | folding (folding : Folding)
  /-- Several compiled selectors. -/
  | batch (results : List (Except Error Compiled))

/-- What a use does. -/
def perform : Op → Action Reply
  | .compile selector => .compiled <$> compile selector
  | .compileClause clause => .xpath <$> compileClause clause
  | .find clause => .found <$> reading (·.find? clause)
  | .contains clause => .truth <$> reading fun c => (c.find? clause).isSome
  | .isEmpty => .truth <$> reading fun c => c.size == 0
  | .size => .count <$> reading Cache.size
  | .pairs => .pairs <$> reading Cache.pairs
  | .stats => .stats <$> reading Cache.stats
  | .folding => return .folding (← cached).folding
  | .clear => do
    clear
    return .done
  | .replace pairs => do
    replace pairs
    return .done
  | .extend pairs => .count <$> extend pairs
  | .reload => do
    replace (← reading Cache.pairs)
    return .done
  | .failExtend pairs => do
    failExtend pairs
    return .failed
  | .compileClauseRaced clause rival =>
    .xpath <$> compileClauseAmid (do let _ ← extend [rival]) clause
  | .warm selectors => .batch <$> selectors.mapM compile

/-- One use: its answer, and the session after it with the records it left. -/
def step (s : Session) (op : Op) : Reply × Session := (perform op).run { s with log := [] }

/-- A session from its start: after each use its answer and the session. -/
def run (s : Session) : List Op → List (Reply × Session)
  | [] => []
  | op :: ops => s.step op :: run (s.step op).2 ops

end Session

end SelectorPath
