/-
The calls that a host virtual machine can make.

* `Function`: the functions that are exported, with their arguments.
* `Request`: a function with terms for its arguments and, where it compiles several
  selectors at once, the schedule of the work on them. What the counters of the
  cache show afterwards depends on the schedule, so it is a part of the request.
* `Call`: a call with arguments of the right types.
* `Call.ofRequest`: the call that a request stands for. Arguments are looked at from
  left to right.
* `State`: the cache that all share, and the caches behind handles.
* `State.call`, `State.serve`: a request and its answer, and a row of requests.
* `State.run`: a row of requests whose work is done in order.
-/
import SelectorPath.Cache.Workers
import SelectorPath.Host.Term

namespace SelectorPath.Host

/-- The name of the module that the functions belong to. -/
def moduleName : String := "Elixir.RustySelect.Native"

/-- The functions that are exported. -/
inductive Function where
  | cacheClear
  | cacheCompile
  | cacheEntries
  | cacheLoad
  | cacheNew
  | cacheStats
  | compile
  | compileParallel
  | compileRelative
  deriving DecidableEq

namespace Function

/-- All functions, in the order of their names. -/
def all : List Function :=
  [.cacheClear, .cacheCompile, .cacheEntries, .cacheLoad, .cacheNew, .cacheStats, .compile,
    .compileParallel, .compileRelative]

/-- The name of a function. -/
def name : Function → String
  | .cacheClear => "cache_clear"
  | .cacheCompile => "cache_compile"
  | .cacheEntries => "cache_entries"
  | .cacheLoad => "cache_load"
  | .cacheNew => "cache_new"
  | .cacheStats => "cache_stats"
  | .compile => "compile"
  | .compileParallel => "compile_parallel"
  | .compileRelative => "compile_relative"

/-- The number of arguments. -/
def arity : Function → Nat
  | .cacheCompile | .cacheLoad => 2
  | .cacheClear | .cacheEntries | .cacheNew | .cacheStats | .compile | .compileParallel
  | .compileRelative => 1

/-- The function may run for long, so that the host runs it apart. -/
def isLong (f : Function) : Bool := f = .compileParallel

/-- The function of a name. -/
def ofName? (name : String) : Option Function := all.find? fun f => f.name == name

end Function

/-- A call as the host makes it. -/
structure Request where
  /-- The function that is called. -/
  function : Function
  /-- What it is called with. -/
  arguments : List Term
  /-- Whose turn it is, one turn after the other, among the workers of the call, if
  it has any. -/
  schedule : List Nat

/-- A call with its arguments. A cache is given by its handle; without one the
cache that all share is meant. -/
inductive Call where
  /-- The selector from the root of the document. -/
  | compile (selector : String)
  /-- The selector from the current node. -/
  | compileRelative (selector : String)
  /-- Several selectors from the root of the document, at once. -/
  | compileParallel (selectors : List String) (schedule : List Nat)
  /-- A new cache. -/
  | cacheNew (ascii : Bool)
  /-- The selector from the root of the document, through a cache. -/
  | cacheCompile (handle : Nat) (selector : String)
  /-- The contents of a cache. -/
  | cacheEntries (target : Option Nat)
  /-- Replaces the contents of a cache. -/
  | cacheLoad (target : Option Nat) (pairs : List (String × String))
  /-- Empties a cache. -/
  | cacheClear (target : Option Nat)
  /-- The figures of a cache. -/
  | cacheStats (target : Option Nat)

/-- The call that a request stands for. -/
def Call.ofRequest : Request → Except Fault Call
  | ⟨.compile, [a], _⟩ => return .compile (← a.text?)
  | ⟨.compileRelative, [a], _⟩ => return .compileRelative (← a.text?)
  | ⟨.compileParallel, [a], schedule⟩ =>
    return .compileParallel (← a.items? Term.text?) schedule
  | ⟨.cacheNew, [a], _⟩ => return .cacheNew (← a.flag?)
  | ⟨.cacheCompile, [a, b], _⟩ => return .cacheCompile (← a.handle?) (← b.text?)
  | ⟨.cacheEntries, [a], _⟩ => return .cacheEntries (← a.target?)
  | ⟨.cacheLoad, [a, b], _⟩ => return .cacheLoad (← a.target?) (← b.items? Term.pair?)
  | ⟨.cacheClear, [a], _⟩ => return .cacheClear (← a.target?)
  | ⟨.cacheStats, [a], _⟩ => return .cacheStats (← a.target?)
  -- any other number of arguments
  | _ => .error .badArgument

/-- All caches of a host. -/
structure State where
  /-- The cache that all share. -/
  shared : Session
  /-- The caches behind handles, in the order in which they were made. -/
  caches : List Session

namespace State

/-- The shared cache is empty, and there is no other. -/
def initial : State := ⟨⟨.empty .lowerCase, false, []⟩, []⟩

/-- Uses one of the caches. A handle that was never made is no argument. -/
def use {α : Type} (s : State) (target : Option Nat) (action : Session.Action α) :
    Except Fault (α × State) :=
  match target with
  | none =>
    let result := action.run s.shared
    .ok (result.1, { s with shared := result.2 })
  | some n =>
    match s.caches[n]? with
    | none => .error .badArgument
    | some session =>
      let result := action.run session
      .ok (result.1, { s with caches := s.caches.set n result.2 })

/-- Compiles a selector and gives the form that is asked for. -/
def compiled (form : Compiled → String) (selector : String) : Session.Action Term := do
  let result ← Session.compile selector
  return Term.ofResult (result.map form)

/-- Adds a cache, and gives its handle. -/
def newCache (s : State) (ascii : Bool) : Term × State :=
  (.handle s.caches.length,
    { s with caches := s.caches ++ [⟨.empty (if ascii then .ascii else .lowerCase), false, []⟩] })

/-- Makes a call. -/
def perform (s : State) : Call → Except Fault (Term × State)
  | .compile selector => s.use none (compiled Compiled.xpath selector)
  | .compileRelative selector => s.use none (compiled Compiled.relative selector)
  | .compileParallel selectors schedule =>
    s.use none (do
      -- the results are in the order of the selectors, whatever order they came in
      let results ← Session.compileAll schedule selectors
      return Term.ofList (results.map fun result => Term.ofResult (result.map Compiled.xpath)))
  | .cacheNew ascii => .ok (s.newCache ascii)
  | .cacheCompile handle selector => s.use (some handle) (compiled Compiled.xpath selector)
  | .cacheEntries target =>
    s.use target (do return Term.ofPairs (← Session.reading Cache.pairs))
  | .cacheLoad target pairs =>
    s.use target (do
      Session.replace pairs
      -- fewer than there are pairs where a key is repeated
      return .integer (← Session.reading Cache.size))
  | .cacheClear target =>
    s.use target (do
      Session.clear
      return .atom "ok")
  | .cacheStats target =>
    s.use target (do return Term.ofStats (← Session.reading Cache.stats))

/-- Makes the call that a request stands for. A call that raises changes nothing. -/
def call (s : State) (r : Request) : Except Fault Term × State :=
  match Call.ofRequest r >>= s.perform with
  | .ok (answer, after) => (.ok answer, after)
  | .error fault => (.error fault, s)

/-- Requests one after the other, with the answer to each. -/
def serve (s : State) : List Request → List (Except Fault Term)
  | [] => []
  | r :: requests => (s.call r).1 :: serve (s.call r).2 requests

/-- Calls one after the other, each of which does its work in order. -/
def run (s : State) (calls : List (Function × List Term)) : List (Except Fault Term) :=
  s.serve (calls.map fun call => ⟨call.1, call.2, []⟩)

end State

end SelectorPath.Host
