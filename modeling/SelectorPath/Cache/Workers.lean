/-
Selectors that are compiled at once through one cache.

Every selector has a worker, which asks the cache for one clause after the other.
Whose turn it is at the lock is up to a schedule, so that between two turns of a
worker the others may have taken any of theirs.

* `Job`: a selector on its way through a cache.
* `Worker`, `Worker.turn`, `Worker.finish`: a job with what it has compiled and not
  yet published, one turn, and all the turns that are left.
* `Session.compileAll`: the turns of a schedule, and those that it leaves over.
-/
import SelectorPath.Cache.Session

namespace SelectorPath

/-- A selector on its way through a cache. -/
inductive Job where
  /-- A clause is being asked for, some are to follow, and of those before the
  forms have been told. -/
  | running (clause : String) (more told : List String)
  /-- The selector has compiled or failed. -/
  | ended (result : Except Error Compiled)

namespace Job

/-- The job goes on with the next clause, if there is one. -/
def next : List String → List String → Job
  | [], told => .ended (.ok ⟨told⟩)
  | clause :: more, told => .running clause more told

/-- The job of compiling a selector. -/
def start (selector : String) : Job :=
  match Selector.splitClauses selector with
  | .error e => .ended (.error e)
  | .ok clauses => next clauses []

/-- The job after a clause has been answered. -/
def heard (result : Except Error String) (more told : List String) : Job :=
  match result with
  | .ok xpath => next more (told ++ [xpath])
  | .error e => .ended (.error e)

end Job

/-- Someone who does a job. -/
structure Worker where
  /-- The job. -/
  job : Job
  /-- What the clause of the job was compiled to, if that has to be published. -/
  unpublished : Option String := none

namespace Worker

/-- What a worker does when it has the lock: it looks its clause up, or publishes
what the clause was compiled to. A clause that is not there is compiled after the
lookup, when others may have the lock. -/
def turn (w : Worker) : Session.Action Worker :=
  match w.job, w.unpublished with
  | .ended _, _ => return w
  | .running clause more told, none => do
    let k := Cache.key clause
    match ← Session.writing (·.lookup k) with
    | some xpath =>
      Session.record (.hit k)
      return ⟨.heard (.ok xpath) more told, none⟩
    | none =>
      -- without the lock: the option of a cache never changes
      match Selector.compileClause (← Session.cached).folding k with
      | .error e => return ⟨.heard (.error e) more told, none⟩
      | .ok xpath =>
        Session.record (.compiled k xpath)
        return ⟨w.job, some xpath⟩
  | .running clause more told, some xpath => do
    -- another worker may have been first; the form that is filed is the answer
    let filed ← Session.writing (·.publish (Cache.key clause) xpath)
    return ⟨.heard (.ok filed) more told, none⟩

/-- A worker that has the lock to itself until its job is over. -/
def finish (w : Worker) : Session.Action (Except Error Compiled) :=
  match w.job, w.unpublished with
  | .ended result, _ => return result
  | .running clause more told, none =>
    return (← Session.compileClauses (clause :: more)).map fun xpaths => ⟨told ++ xpaths⟩
  | .running clause more told, some xpath => do
    let filed ← Session.writing (·.publish (Cache.key clause) xpath)
    return (← Session.compileClauses more).map fun xpaths => ⟨told ++ filed :: xpaths⟩

end Worker

namespace Session

/-- The turn of one of the workers. There may be no such worker. -/
def turnOf (workers : List Worker) (i : Nat) : Action (List Worker) :=
  match workers[i]? with
  | none => return workers
  | some w => return workers.set i (← w.turn)

/-- Compiles several selectors at once. The schedule tells the workers' turns; those
that are left when it ends are taken by one worker after the other, so that without
a schedule the selectors are compiled in order. -/
def compileAll (schedule : List Nat) (selectors : List String) :
    Action (List (Except Error Compiled)) := do
  let workers ← schedule.foldlM turnOf (selectors.map fun selector => ⟨.start selector, none⟩)
  workers.mapM Worker.finish

end Session

end SelectorPath
