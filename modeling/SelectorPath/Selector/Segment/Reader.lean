/-
Reading the segment at the front of a text.

A segment is read part by part in a fixed order: element name, id, classes,
attribute tests, pseudo-class. Then comes the combinator, the blanks and `>`
that separate the segment from the next one.

* `Segment.readCompound`: the parts.
* `Segment.readCombinator`: the separator.
* `Segment.read`: both, with the text that follows.
* `Segment.parse`: the same, counted in bytes.
-/
import SelectorPath.Selector.Argument
import SelectorPath.Selector.Segment.Attribute

namespace SelectorPath.Segment

/-- The element name at the front, `*` for any element. -/
def readTag (text : List Char) : Option NodeTest × List Char :=
  match text with
  | '*' :: rest => (some .any, rest)
  | _ =>
    match Text.readName text with
    | some (name, rest) => (some (.named (String.ofList name)), rest)
    | none => (none, text)

/-- The id at the front, a name after `#`. -/
def readId : List Char → Except Cause (Option String × List Char)
  | '#' :: text =>
    match Text.readName text with
    | some (name, rest) => .ok (some (String.ofList name), rest)
    | none => .error .missingId
  | text => .ok (none, text)

/-- The classes at the front, each a name after `.`. -/
def readClasses (text : List Char) : Except Cause (List String × List Char) :=
  match text with
  | '.' :: text =>
    match _h : Text.readName text with
    | some (name, rest) => do
      let (names, rest) ← readClasses rest
      return (String.ofList name :: names, rest)
    | none => .error .missingClass
  | _ => .ok ([], text)
termination_by text.length
decreasing_by
  have := Text.length_of_readName _h
  simp only [List.length_cons]
  omega

/-- The attribute tests at the front, each in square brackets. -/
def readAttributes (text : List Char) : Except Cause (List AttributeTest × List Char) :=
  match text with
  | '[' :: text =>
    match _h : Text.readBracketed text with
    | some (body, rest) => do
      let test ← AttributeTest.ofBody body
      let (tests, rest) ← readAttributes rest
      return (test :: tests, rest)
    | none => .error .openBracket
  | _ => .ok ([], text)
termination_by text.length
decreasing_by
  have := Text.length_of_readGroup _h
  simp only [List.length_cons]
  omega

/-- The pseudo-class at the front, a name after a single `:` with or without
an argument, which is trimmed. -/
def readPseudo : List Char → Except Cause (Option Pseudo × List Char)
  | ':' :: ':' :: _ => .error .earlyProperty
  | ':' :: text =>
    match Text.readName text with
    | some (name, rest) => do
      let (argument, rest) ← Argument.read rest
      return (some ⟨String.ofList name, argument.map (String.ofList ∘ Text.trim)⟩, rest)
    | none => .error .missingPseudo
  | text => .ok (none, text)

/-- All parts of the segment at the front. At least one part is there. -/
def readCompound (text : List Char) : Except Cause (Segment × List Char) := do
  let tag := readTag text
  let (id, rest) ← readId tag.2
  let (classes, rest) ← readClasses rest
  let (attributes, rest) ← readAttributes rest
  let (pseudo, rest) ← readPseudo rest
  let segment : Segment := { tag := tag.1, id, classes, attributes, pseudo }
  if segment.tag.isSome || segment.isConstrained then .ok (segment, rest)
  else
    match rest with
    | c :: _ => .error (.unexpected c)
    | [] => .error .bareSegment

/-- The separator at the front: `>` with blanks around it, a run of blanks, or
the end of the text. -/
def readCombinator (text : List Char) : Except Cause (Combinator × List Char) :=
  match Text.skipBlanks text with
  | '>' :: rest => .ok (.child, Text.skipBlanks rest)
  | [] => .ok (.descendant, [])
  | c :: rest =>
    if text.head?.any Symbol.isBlank then .ok (.descendant, c :: rest)
    else .error (.unexpected c)

/-- The segment at the front, after blanks, with its separator. -/
def read (text : List Char) : Except Cause (Segment × List Char) :=
  if (Text.skipBlanks text).isEmpty then .error .emptySelector
  else do
    let (segment, rest) ← readCompound (Text.skipBlanks text)
    let (combinator, rest) ← readCombinator rest
    return ({ segment with combinator }, rest)

/-- The segment at the front of a text, and the number of bytes that it takes
up with its separator. -/
def parse (text : String) : Except Error (Segment × Nat) :=
  (Error.blame text (read text.toList)).map fun (segment, rest) =>
    (segment, text.utf8ByteSize - (String.ofList rest).utf8ByteSize)

end SelectorPath.Segment
