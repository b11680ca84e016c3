/-
Terms, the values that a host virtual machine exchanges with this library.

* `Term`: integers, floats, atoms, binaries, tuples, lists, maps and handles of
  caches.
* `Fault`: what a call raises instead of returning a term.
* `Term.text?`, `Term.flag?`, `Term.items?`, ...: a term as an argument of some
  type.
* `Term.ofResult`, `Term.ofPairs`, `Term.ofStats`: results as terms.
-/
import SelectorPath.Cache.Basic

namespace SelectorPath.Host

/-- A value of the host. -/
inductive Term where
  /-- An integer. -/
  | integer (i : Int)
  /-- A floating-point number. -/
  | float (x : Float)
  /-- An atom. -/
  | atom (name : String)
  /-- A sequence of bytes. -/
  | binary (bytes : List UInt8)
  /-- A tuple. -/
  | tuple (items : List Term)
  /-- The empty list. -/
  | nil
  /-- A list cell, whose tail need not be a list. -/
  | cons (head tail : Term)
  /-- A map from atoms. -/
  | map (pairs : List (String × Term))
  /-- The handle of a cache, by the order in which the handles were made. -/
  | handle (n : Nat)

/-- What a call raises. -/
inductive Fault where
  /-- An argument is not of the type that the call expects. -/
  | badArgument
  /-- A list turned out to have no proper end. -/
  | improperList
  deriving DecidableEq

/-- The fault as an atom. -/
def Fault.term : Fault → Term
  | .badArgument => .atom "badarg"
  | .improperList => .atom "nif_panicked"

namespace Term

/-! ### Terms as arguments -/

/-- The text of a binary in UTF-8. -/
def text? : Term → Except Fault String
  | .binary bytes =>
    match String.fromUTF8? ⟨bytes.toArray⟩ with
    | some s => .ok s
    | none => .error .badArgument
  | _ => .error .badArgument

/-- The truth value of an atom. -/
def flag? : Term → Except Fault Bool
  | .atom "true" => .ok true
  | .atom "false" => .ok false
  | _ => .error .badArgument

/-- The handle of a cache. -/
def handle? : Term → Except Fault Nat
  | .handle n => .ok n
  | _ => .error .badArgument

/-- The handle of a cache, or `nil` for the cache that all share. -/
def target? : Term → Except Fault (Option Nat)
  | .handle n => .ok (some n)
  | .atom "nil" => .ok none
  | _ => .error .badArgument

/-- Two texts in a tuple. -/
def pair? : Term → Except Fault (String × String)
  | .tuple [a, b] => do return (← text? a, ← text? b)
  | _ => .error .badArgument

/-- The items of the tail of a list, in order. -/
def tailItems {α : Type} (item? : Term → Except Fault α) : Term → Except Fault (List α)
  | .nil => .ok []
  | .cons head tail => do
    let item ← item? head
    let items ← tailItems item? tail
    return item :: items
  | _ => .error .improperList

/-- The items of a list. A term that is no list at all is a bad argument, a
list without a proper end is worse. -/
def items? {α : Type} (item? : Term → Except Fault α) : Term → Except Fault (List α)
  | .nil => .ok []
  | .cons head tail => tailItems item? (.cons head tail)
  | _ => .error .badArgument

/-! ### Results as terms -/

/-- A text as a binary. -/
def ofText (s : String) : Term := .binary s.toUTF8.toList

/-- A list. -/
def ofList (items : List Term) : Term := items.foldr .cons .nil

/-- A compiled selector, or why there is none. -/
def ofResult : Except Error String → Term
  | .ok xpath => .tuple [.atom "ok", ofText xpath]
  | .error e => .tuple [.atom "error", .tuple [.atom e.kind, ofText e.message]]

/-- The contents of a cache. -/
def ofPairs (pairs : List (String × String)) : Term :=
  ofList (pairs.map fun pair => .tuple [ofText pair.1, ofText pair.2])

/-- The figures of a cache, in the order of their names. -/
def ofStats (s : Cache.Stats) : Term :=
  .map [("entries", .integer s.entries), ("hit_ratio", .float s.hitRatio),
    ("hits", .integer s.hits), ("misses", .integer s.misses)]

end Term

end SelectorPath.Host
