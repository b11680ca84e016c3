/-
Queries: expressions run against a provider.

A selector is compiled through a cache, relative to the context node if there
is one; an XPath expression is taken as it is. The provider is called with the
result, and what comes back is counted, classified or searched.

Several selectors may be run at once (`Query.findEach`, `Query.findKeyed`). Here they
are run one after the other. What a selector compiles to does not depend on what the
others have left in the cache by then, nor do the contents in the end
(`Batch.schedule_independent`), and the provider answers each by itself. So the order
of the work shows in the order of the calls and in the counts of hits and misses, and,
if several selectors under keys fail, in which of their failures is told. Nothing that
is said of the two queries depends on these.

* `Query.State`: the cache in use, and the calls of the provider.
* `Query.Action`: what may fail without losing the state.
* `Query.findNodes`, `Query.find`, `Query.first`, ...: the queries.
* `Query.Op`, `Query.Reply`, `Query.perform`, `Query.step`: the same as data.
-/
import SelectorPath.Cache.Session
import SelectorPath.Query.Provider

namespace SelectorPath.Query

/-- The language of an expression. -/
inductive Language where
  | css
  | xpath
  deriving DecidableEq

/-- What queries change. -/
structure State (ν : Type) where
  /-- The cache in use. -/
  session : Session
  /-- The calls of the provider, in order: expression and context node. -/
  calls : List (String × Option ν) := []

/-- A query, which may fail. What it has done by then stands. -/
abbrev Action (ν : Type) := ExceptT Failure (StateM (State ν))

variable {ν ω : Type}

/-- Uses the cache. -/
def withCache {α : Type} (action : Session.Action α) : Action ν α := do
  let result := action.run (← get).session
  modify fun s => { s with session := result.2 }
  return result.1

/-- Goes on with a result, or fails. -/
def ofExcept {α ε : Type} (failure : ε → Failure) : Except ε α → Action ν α
  | .ok a => return a
  | .error e => throw (failure e)

/-- The expression that the provider is given. -/
def expression (text : String) (language : Language) (relative : Bool) : Action ν String :=
  match language with
  | .xpath => return text
  | .css => do
    let compiled ← ofExcept .selector (← withCache (Session.compile text))
    return if relative then compiled.relative else compiled.xpath

/-- Calls the provider. -/
def evaluate (p : Provider ν ω) (xpath : String) (context : Option ν) : Action ν (List ν) := do
  withCache (Session.record (.evaluating xpath))
  modify fun s => { s with calls := s.calls ++ [(xpath, context)] }
  ofExcept .provider (p.evaluate xpath context)

/-- The nodes that an expression selects. -/
def findNodes (p : Provider ν ω) (text : String) (language : Language) (context : Option ν) :
    Action ν (List ν) := do
  let xpath ← expression text language context.isSome
  evaluate p xpath context

/-- A node as a result. -/
def classify (p : Provider ν ω) (node : ν) : Action ν (Match ω) := ofExcept id (p.classify node)

/-- The results of an expression. -/
def find (p : Provider ν ω) (text : String) (language : Language) (context : Option ν) :
    Action ν (List (Match ω)) := do
  let nodes ← findNodes p text language context
  ofExcept id (nodes.mapM p.classify)

/-- The node as a result, if there is one. -/
def classifyOption (p : Provider ν ω) : Option ν → Action ν (Option (Match ω))
  | none => return none
  | some node => some <$> classify p node

/-- The result at an index, if there are that many. -/
def findIndex (p : Provider ν ω) (text : String) (index : Nat) (language : Language)
    (context : Option ν) : Action ν (Option (Match ω)) := do
  let nodes ← findNodes p text language context
  classifyOption p nodes[index]?

/-- The first result, which is all that the provider is asked for. -/
def first (p : Provider ν ω) (text : String) (language : Language) (context : Option ν) :
    Action ν (Option (Match ω)) := do
  let xpath ← expression text language context.isSome
  let nodes ← evaluate p ("(" ++ xpath ++ ")[1]") context
  classifyOption p nodes.head?

/-- There is a result. -/
def has (p : Provider ν ω) (text : String) (language : Language) (context : Option ν) :
    Action ν Bool := do
  let nodes ← findNodes p text language context
  return !nodes.isEmpty

/-- The number of results. -/
def count (p : Provider ν ω) (text : String) (language : Language) (context : Option ν) :
    Action ν Nat := do
  let nodes ← findNodes p text language context
  return nodes.length

/-- The node is among those that a selector selects in the whole document. -/
def isMatch [DecidableEq ν] (p : Provider ν ω) (node : ν) (selector : String) :
    Action ν Bool := do
  let nodes ← findNodes p selector .css none
  return nodes.contains node

/-- The nearest ancestor of a node among those that a selector selects in the
whole document. The provider gives ancestors from the root downwards. -/
def closest [DecidableEq ν] (p : Provider ν ω) (node : ν) (selector : String) :
    Action ν (Option ν) := do
  let matched ← findNodes p selector .css none
  if matched.isEmpty then return none
  else
    let ancestors ← evaluate p "ancestor::*" (some node)
    return ancestors.reverse.find? (matched.contains ·)

/-- A query whose failure is a result. -/
def attempt {α : Type} (action : Action ν α) : Action ν (Except Failure α) :=
  ExceptT.mk (.ok <$> action.run)

/-- The nodes of several selectors, each on its own. A failure is no concern of the
others. -/
def findEach (p : Provider ν ω) (selectors : List String) (context : Option ν) :
    Action ν (List (Except Failure (List ν))) :=
  selectors.mapM fun selector => attempt (findNodes p selector .css context)

/-- The nodes of several selectors under their keys, up to the first that
fails. -/
def findKeyed (p : Provider ν ω) (selectors : List (String × String)) (context : Option ν) :
    Action ν (List (String × List ν)) :=
  selectors.mapM fun pair => do
    let nodes ← findNodes p pair.2 .css context
    return (pair.1, nodes)

/-- The queries. -/
inductive Op (ν : Type) where
  /-- The expression for the provider. -/
  | expression (text : String) (language : Language) (relative : Bool)
  /-- The nodes. -/
  | findNodes (text : String) (language : Language) (context : Option ν)
  /-- The results. -/
  | find (text : String) (language : Language) (context : Option ν)
  /-- The result at an index. -/
  | findIndex (text : String) (index : Nat) (language : Language) (context : Option ν)
  /-- The first result. -/
  | first (text : String) (language : Language) (context : Option ν)
  /-- Whether there is a result. -/
  | has (text : String) (language : Language) (context : Option ν)
  /-- The number of results. -/
  | count (text : String) (language : Language) (context : Option ν)
  /-- Whether a selector selects a node. -/
  | isMatch (node : ν) (selector : String)
  /-- The nearest ancestor that a selector selects. -/
  | closest (node : ν) (selector : String)
  /-- A node as a result. -/
  | classify (node : ν)
  /-- The nodes of several selectors. -/
  | findEach (selectors : List String) (context : Option ν)
  /-- The nodes of several selectors under keys. -/
  | findKeyed (selectors : List (String × String)) (context : Option ν)

/-- The answers to queries. -/
inductive Reply (ν ω : Type) where
  /-- An expression. -/
  | text (s : String)
  /-- Nodes. -/
  | nodes (nodes : List ν)
  /-- Results. -/
  | found (results : List (Match ω))
  /-- A result, if there is one. -/
  | foundOne (result : Option (Match ω))
  /-- Yes or no. -/
  | truth (b : Bool)
  /-- A number. -/
  | count (n : Nat)
  /-- A node, if there is one. -/
  | node (node : Option ν)
  /-- Nodes for each of several selectors. -/
  | batch (results : List (Except Failure (List ν)))
  /-- Nodes under keys. -/
  | keyed (results : List (String × List ν))

/-- What a query does. -/
def perform [DecidableEq ν] (p : Provider ν ω) : Op ν → Action ν (Reply ν ω)
  | .expression text language relative => .text <$> expression text language relative
  | .findNodes text language context => .nodes <$> findNodes p text language context
  | .find text language context => .found <$> find p text language context
  | .findIndex text index language context =>
    .foundOne <$> findIndex p text index language context
  | .first text language context => .foundOne <$> first p text language context
  | .has text language context => .truth <$> has p text language context
  | .count text language context => .count <$> count p text language context
  | .isMatch node selector => .truth <$> isMatch p node selector
  | .closest node selector => .node <$> closest p node selector
  | .classify node => (.foundOne ∘ some) <$> classify p node
  | .findEach selectors context => .batch <$> findEach p selectors context
  | .findKeyed selectors context => .keyed <$> findKeyed p selectors context

/-- One query: its answer, and the state after it with the calls and records it
left. -/
def step [DecidableEq ν] (p : Provider ν ω) (s : State ν) (op : Op ν) :
    Except Failure (Reply ν ω) × State ν :=
  (perform p op).run.run ⟨{ s.session with log := [] }, []⟩

/-- Queries one after the other: after each its answer and the state. -/
def run [DecidableEq ν] (p : Provider ν ω) (s : State ν) :
    List (Op ν) → List (Except Failure (Reply ν ω) × State ν)
  | [] => []
  | op :: ops => step p s op :: run p (step p s op).2 ops

end SelectorPath.Query
