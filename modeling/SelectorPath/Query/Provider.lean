/-
Providers: trees with an XPath engine, and what comes back from them.

* `Provider`: the engine, as far as queries need it.
* `Match`: a classified result.
* `Failure`: why a query has no result.
* `Provider.classify`: a node as a result.
-/
import SelectorPath.Selector.Error

namespace SelectorPath

/-- The kind of a node. -/
inductive NodeKind where
  /-- An element. -/
  | element
  /-- A text. -/
  | text
  /-- An attribute of an element. -/
  | attr
  /-- Anything else, as the provider names it. -/
  | other (name : String)
  deriving DecidableEq

/-- A tree with an XPath engine, over nodes `ν`, whose elements are handed out
as `ω`. -/
structure Provider (ν ω : Type) where
  /-- The nodes that an expression selects from a node, or from the root of the
  document, in document order. The engine may fail with a message. -/
  evaluate : String → Option ν → Except String (List ν)
  /-- The kind of a node. -/
  kind : ν → NodeKind
  /-- The text of a text or attribute node. -/
  value : ν → String
  /-- An element as it is handed out. -/
  wrap : ν → ω

/-- A classified result. -/
inductive Match (ω : Type) where
  /-- An element. -/
  | element (e : ω)
  /-- A text. -/
  | text (value : String)
  /-- The value of an attribute. -/
  | attr (value : String)

namespace Match

/-- The element, if the result is one. -/
def element? {ω : Type} : Match ω → Option ω
  | .element e => some e
  | .text _ | .attr _ => none

/-- The text or attribute value, if the result is one. -/
def value? {ω : Type} : Match ω → Option String
  | .element _ => none
  | .text value | .attr value => some value

end Match

/-- Why a query has no result. -/
inductive Failure where
  /-- The selector could not be compiled. -/
  | selector (error : Error)
  /-- A node is neither an element nor a text nor an attribute. -/
  | unknownKind (name : String)
  /-- The provider failed. -/
  | provider (message : String)
  deriving DecidableEq

namespace Failure

/-- The stable name of the kind of failure. -/
def kind : Failure → String
  | .selector error => error.kind
  | .unknownKind _ => "unknown_node_kind"
  | .provider _ => "provider_error"

/-- The wording of a failure. -/
def message : Failure → String
  | .selector error => error.message
  | .unknownKind name => "unknown node kind: " ++ name
  | .provider message => "xpath provider error: " ++ message

end Failure

/-- A node as a result, by its kind. -/
def Provider.classify {ν ω : Type} (p : Provider ν ω) (node : ν) : Except Failure (Match ω) :=
  match p.kind node with
  | .element => .ok (.element (p.wrap node))
  | .text => .ok (.text (p.value node))
  | .attr => .ok (.attr (p.value node))
  | .other name => .error (.unknownKind name)

end SelectorPath
