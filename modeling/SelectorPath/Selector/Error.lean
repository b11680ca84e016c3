/-
Why a text is no selector.

* `Cause`: what is wrong with a malformed selector, in general terms.
* `Error`: the selector at fault with its cause, or a pseudo-class that is not
  known.
* `Cause.message`, `Error.message`, `Error.kind`: the wording, in one place.
-/
import SelectorPath.Text.Quoted

namespace SelectorPath

/-- What is wrong with a malformed selector. -/
inductive Cause where
  /-- Nothing but white space where a selector should stand. -/
  | emptySelector
  /-- A quotation in a union is left open. -/
  | openQuote
  /-- `#` without a name. -/
  | missingId
  /-- `.` without a name. -/
  | missingClass
  /-- An attribute test is left open. -/
  | openBracket
  /-- An argument is left open. -/
  | openParenthesis
  /-- A property in the middle of a clause. -/
  | earlyProperty
  /-- `:` without a name. -/
  | missingPseudo
  /-- A character that no part of a segment begins with. -/
  | unexpected (c : Char)
  /-- A segment of which no part could be read, at the end of the text. -/
  | bareSegment
  /-- An attribute test, given by its body, with operators on both sides. -/
  | mixedOperators (body : String)
  /-- An attribute test without a name. -/
  | missingAttribute
  /-- An attribute name with a symbol that no name has. -/
  | invalidAttribute (name : String)
  /-- A comparison, given by its body, without a value. -/
  | missingValue (body : String)
  /-- A test for absence, given by its body, with a value. -/
  | needlessValue (body : String)
  /-- A clause without any segment. -/
  | missingSegment
  /-- `>` at the end of a clause. -/
  | danglingChild
  /-- A step that tests nothing at all. -/
  | bareStep
  /-- A pseudo-class, given by its name, without the argument it needs. -/
  | missingArgument (pseudo : String)
  /-- An argument that is no `An+B` expression. -/
  | invalidPositions (argument : String)
  /-- A quotation in the argument of `:contains` is left open. -/
  | openContains
  /-- `::` without a name. -/
  | missingProperty
  /-- Text after the property of the given name. -/
  | afterProperty (name : String)
  /-- `::attr` without attribute names. -/
  | missingNames
  /-- `::text` with an argument. -/
  | needlessArgument
  /-- A property that is not known. -/
  | unknownProperty (name : String)
  /-- A template with more than one segment. -/
  | manySegments
  /-- A template with a pseudo-class. -/
  | pseudoTemplate
  /-- A template for any element. -/
  | wildcardTemplate
  /-- A template with a comparison on the given attribute. -/
  | comparisonTemplate (name : String)
  deriving DecidableEq

/-- The wording of a cause. -/
def Cause.message : Cause → String
  | .emptySelector => "selector must not be empty"
  | .openQuote => "unterminated quote"
  | .missingId => "expected an id after '#'"
  | .missingClass => "expected a class name after '.'"
  | .openBracket => "unterminated '['"
  | .openParenthesis => "unterminated '('"
  | .earlyProperty => "a '::' property must end the selector"
  | .missingPseudo => "pseudo-class name must not be empty"
  | .unexpected c => "unexpected character " ++ Text.quotedChar c
  | .bareSegment => "segment has no tag or constraint"
  | .mixedOperators body =>
    "attribute test [" ++ body ++ "] combines a prefix and a suffix operator"
  | .missingAttribute => "attribute name must not be empty"
  | .invalidAttribute name => "invalid attribute name " ++ Text.quoted name
  | .missingValue body => "attribute test [" ++ body ++ "] needs a value"
  | .needlessValue body => "attribute test [" ++ body ++ "] cannot take a value"
  | .missingSegment => "expected a segment"
  | .danglingChild => "'>' must be followed by a segment"
  | .bareStep => "segment must contain a tag name or at least one constraint"
  | .missingArgument pseudo => ":" ++ pseudo ++ "() requires an argument"
  | .invalidPositions argument => "invalid An+B expression " ++ Text.quoted argument
  | .openContains => "unterminated quote in :contains()"
  | .missingProperty => "property name must not be empty"
  | .afterProperty name => "unexpected text after ::" ++ name
  | .missingNames => "::attr() requires attribute names"
  | .needlessArgument => "::text takes no arguments"
  | .unknownProperty name => "unknown property ::" ++ name
  | .manySegments => "an element template takes a single segment"
  | .pseudoTemplate => "pseudo-classes cannot describe an element"
  | .wildcardTemplate => "'*' is not an element name"
  | .comparisonTemplate name =>
    "attribute test on " ++ Text.quoted name ++ " cannot describe an element"

/-- Why a text could not be compiled. -/
inductive Error where
  /-- The selector is at fault. -/
  | malformed (selector : String) (cause : Cause)
  /-- The pseudo-class of this name is not known. -/
  | unsupported (pseudo : String)
  deriving DecidableEq

namespace Error

/-- The stable name of the kind of error. -/
def kind : Error → String
  | .malformed _ _ => "malformed_selector"
  | .unsupported _ => "unsupported_selector"

/-- The wording of an error. -/
def message : Error → String
  | .malformed selector cause =>
    "malformed selector " ++ Text.quoted selector ++ ": " ++ cause.message
  | .unsupported pseudo => "unsupported pseudo-class " ++ Text.quoted pseudo

/-- A result whose cause of failure is laid to `selector`. -/
def blame {α : Type} (selector : String) : Except Cause α → Except Error α
  | .ok a => .ok a
  | .error cause => .error (.malformed selector cause)

/-! ### Steps that may fail, one after the other -/

/-- Results can be compared if their values and errors can. -/
instance {ε α : Type} [DecidableEq ε] [DecidableEq α] : DecidableEq (Except ε α)
  | .ok a, .ok b => decidable_of_iff (a = b) ⟨fun h => h ▸ rfl, fun h => Except.ok.inj h⟩
  | .error a, .error b =>
    decidable_of_iff (a = b) ⟨fun h => h ▸ rfl, fun h => Except.error.inj h⟩
  | .ok _, .error _ => .isFalse nofun
  | .error _, .ok _ => .isFalse nofun

/-- Two steps succeed together exactly when the first does and then the
second. -/
theorem bind_eq_ok {ε α β : Type} {x : Except ε α} {f : α → Except ε β} {b : β} :
    (x >>= f) = .ok b ↔ ∃ a, x = .ok a ∧ f a = .ok b := by
  cases x with
  | error e => simp [bind, Except.bind]
  | ok a => simp [bind, Except.bind]

/-- Functions that agree on the elements of a list map it alike. -/
theorem mapM_congr {ε α β : Type} {f g : α → Except ε β} {xs : List α}
    (h : ∀ x ∈ xs, f x = g x) : xs.mapM f = xs.mapM g := by
  induction xs with
  | nil => rfl
  | cons x xs ih =>
    rw [List.mapM_cons, List.mapM_cons, h x List.mem_cons_self,
      ih fun y hy => h y (List.mem_cons_of_mem x hy)]

/-- Laying a failure to a selector leaves a success as it is. -/
theorem blame_eq_ok {α : Type} {selector : String} {x : Except Cause α} {a : α} :
    blame selector x = .ok a ↔ x = .ok a := by
  cases x <;> simp [blame]

end Error

end SelectorPath
