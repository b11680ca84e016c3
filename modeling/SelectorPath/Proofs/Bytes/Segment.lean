/-
Segments, read at byte positions.

* `Bytewise.attributeTest`: the test that the body of an attribute test stands
  for, with its cuts at `=` and at the operator (`Bytewise.attributeTest_eq`).
* `Bytewise.readCompound`, `Bytewise.readCombinator`: the parts of a segment and
  the separator after it.
* `Bytewise.parseAt`: the segment at a position, and the number of bytes it takes
  up (`Bytewise.parseAt_place`).
-/
import SelectorPath.Proofs.Bytes.Reader

namespace SelectorPath.Bytewise

open Text

variable {text rest : List Char}

/-! ### Attribute tests -/

/-- The text before the first `=` and the value after it. -/
def splitValue (body : List Char) : Option (List Char × Option String) := do
  match ← cutAt '=' body with
  | none => return (body, none)
  | some (label, value) =>
    let value ← unquote (trim value)
    return (label, some (String.ofList value))

/-- The value of a test begins behind the sign and ends with the body. -/
lemma splitValue_eq (body : List Char) :
    splitValue body = some (AttributeTest.splitValue body) := by
  rw [splitValue, cutAt_eq (by decide), AttributeTest.splitValue]
  cases body.dropWhile (· != '=') with
  | nil => rfl
  | cons c value =>
      show (unquote (trim value) >>= _) = _
      rw [unquote_eq]
      rfl

/-- The marks that stand for comparisons. -/
def operatorMarks : List Char := ['^', '$', '*', '!', '~']

/-- The comparison that a byte before `=` stands for. -/
def operatorOf? (b : UInt8) : Option Operator :=
  (operatorMarks.find? fun mark => Symbol.is mark b).bind Operator.ofMark?

/-- The operator of a test and its name, which is cut off before the last byte if
that is an operator. -/
def splitOperator (body label : List Char) : ExceptT Cause Option (Operator × List Char) :=
  let (op, name) := AttributeTest.leadingOperator label
  match (encode name).getLast?.bind operatorOf? with
  | none => return (op, name)
  | some comparison =>
    if op = .plain then do
      let (name, _) ← need (splitAt? (size name - 1) name)
      return (comparison, name)
    else throw (.mixedOperators (String.ofList body))

lemma mem_of_ofMark? {c : Char} {op : Operator} (h : Operator.ofMark? c = some op) :
    c ∈ operatorMarks := by
  rw [Operator.ofMark?.eq_def] at h
  split at h
  · decide
  · decide
  · decide
  · decide
  · decide
  · simp at h

lemma isAscii_operatorMarks : IsAscii operatorMarks := by decide

/-- The last byte of a name is an operator exactly if its last character is. -/
lemma operatorOf?_of_mem_encode {c : Char} {b : UInt8} (h : b ∈ String.utf8EncodeChar c) :
    operatorOf? b = Operator.ofMark? c := by
  rw [operatorOf?]
  cases hfind : operatorMarks.find? fun mark => Symbol.is mark b with
  | some mark =>
      have hmark := List.find?_some hfind
      rw [is_of_mem_encode (isAscii_operatorMarks mark (List.mem_of_find?_eq_some hfind)) h,
        Symbol.is_char] at hmark
      rw [Option.bind_some, hmark]
  | none =>
      rw [List.find?_eq_none] at hfind
      rw [Option.bind_none, eq_comm]
      by_contra hsome
      obtain ⟨op, hop⟩ := Option.ne_none_iff_exists'.mp hsome
      have hmem := mem_of_ofMark? hop
      refine hfind c hmem ?_
      rw [is_of_mem_encode (isAscii_operatorMarks c hmem) h, Symbol.is_char]

/-- The operator is the last symbol before the sign, and the cut before it is allowed
since it is of ASCII. -/
lemma splitOperator_eq (body label : List Char) :
    splitOperator body label = sure (AttributeTest.splitOperator body label) := by
  rw [splitOperator, AttributeTest.splitOperator]
  generalize AttributeTest.leadingOperator label = leading
  obtain ⟨op, name⟩ := leading
  dsimp only
  rcases List.eq_nil_or_concat' name with rfl | ⟨init, z, rfl⟩
  · rfl
  · have hne : String.utf8EncodeChar z ≠ [] := String.utf8EncodeChar_ne_nil
    -- the last byte is that of the last character where this one is a mark
    have hlast : (encode (init ++ [z])).getLast?.bind operatorOf? = Operator.ofMark? z := by
      rw [encode_append, encode_cons, encode_nil, List.append_nil,
        List.getLast?_append_of_ne_nil _ hne, List.getLast?_eq_some_getLast hne, Option.bind_some,
        operatorOf?_of_mem_encode (List.getLast_mem hne)]
    rw [hlast, AttributeTest.trailingOperator, List.getLast?_concat, Option.bind_some,
      List.dropLast_concat]
    cases hz : Operator.ofMark? z with
    | none => rfl
    | some comparison =>
        -- the mark that is taken away is one byte, so the cut is at a boundary
        have hsize : size (init ++ [z]) - 1 = size init := by
          have hascii := isAscii_operatorMarks z (mem_of_ofMark? hz)
          rw [size_append, size_cons, utf8Size_ascii hascii, size_nil]
          omega
        simp only [Option.map_some]
        split_ifs
        · rw [hsize, splitAt?_append]
          rfl
        · rfl

/-- The test that a body stands for. -/
def attributeTest (body : List Char) : ExceptT Cause Option AttributeTest := do
  let (label, value) ← need (splitValue body)
  let (op, name) ← splitOperator body (trim label)
  sure (AttributeTest.checked body (trimEnd name) op value)

/-- So a test is read from its body alike, by bytes and by symbols. -/
theorem attributeTest_eq (body : List Char) :
    attributeTest body = sure (AttributeTest.ofBody body) := by
  rw [attributeTest, splitValue_eq, need_some, sure_ok_bind, AttributeTest.ofBody]
  dsimp only
  rw [splitOperator_eq]
  cases AttributeTest.splitOperator body (trim (AttributeTest.splitValue body).1) with
  | error cause => rfl
  | ok found => rfl

/-! ### The parts of a segment -/

/-- The element name at a position. -/
def readTag (text : List Char) (i : Nat) : Option (Option NodeTest × Nat) :=
  match eat text '*' i with
  | some j => some (some .any, j)
  | none => do
    match ← readName text i with
    | some (name, j) => return (some (.named (String.ofList name)), j)
    | none => return (none, i)

/-- The id at a position. -/
def readId (text : List Char) (i : Nat) : ExceptT Cause Option (Option String × Nat) :=
  match eat text '#' i with
  | none => return (none, i)
  | some j => do
    match ← need (readName text j) with
    | some (name, k) => return (some (String.ofList name), k)
    | none => throw .missingId

/-- The classes at a position. -/
def readClasses (text : List Char) (i : Nat) : ExceptT Cause Option (List String × Nat) :=
  match _h : eat text '.' i with
  | none => return ([], i)
  | some j =>
    match _h' : readName text j with
    | none => need none
    | some none => throw .missingClass
    | some (some (name, k)) => do
      let (names, l) ← readClasses text k
      return (String.ofList name :: names, l)
termination_by size text - i
decreasing_by
  have := lt_of_eat _h
  have := lt_of_readName _h'
  omega

/-- The attribute tests at a position. -/
def readAttributes (text : List Char) (i : Nat) :
    ExceptT Cause Option (List AttributeTest × Nat) :=
  match _h : eat text '[' i with
  | none => return ([], i)
  | some j =>
    match _h' : readBracketed text j with
    | none => need none
    | some none => throw .openBracket
    | some (some (body, k)) => do
      let test ← attributeTest body
      let (tests, l) ← readAttributes text k
      return (test :: tests, l)
termination_by size text - i
decreasing_by
  have := lt_of_eat _h
  have := lt_of_readGroup _h'
  omega

/-- The argument in parentheses at a position. -/
def readArgument (text : List Char) (i : Nat) :
    ExceptT Cause Option (Option (List Char) × Nat) :=
  match eat text '(' i with
  | none => return (none, i)
  | some j => do
    match ← need (readParenthesized text j) with
    | some (argument, k) => return (some argument, k)
    | none => throw .openParenthesis

/-- The pseudo-class at a position. -/
def readPseudo (text : List Char) (i : Nat) : ExceptT Cause Option (Option Pseudo × Nat) :=
  match eat text ':' i with
  | none => return (none, i)
  | some j =>
    if (eat text ':' j).isSome then throw .earlyProperty
    else do
      match ← need (readName text j) with
      | none => throw .missingPseudo
      | some (name, k) =>
        let (argument, l) ← readArgument text k
        return (some ⟨String.ofList name, argument.map (String.ofList ∘ trim)⟩, l)

/-- A tag is read at a place of the text as it is from what is left of it. -/
lemma readTag_place (h : rest <:+ text) :
    readTag text (place text rest) = some (located text (Segment.readTag rest)) := by
  by_cases hmark : '*' ∈ rest.head?
  · obtain ⟨rest, rfl⟩ := List.head?_eq_some_iff.mp hmark
    rw [readTag, eat_cons (by decide) h]
    rfl
  · rw [readTag, eat_of_ne (by decide) h hmark]
    show (readName text (place text rest) >>= _) = _
    rw [readName_place h]
    cases hname : Text.readName rest with
    | none =>
        rw [Segment.readTag_of_none hmark hname]
        rfl
    | some r =>
        rw [Segment.readTag_of_name hname]
        rfl

lemma readId_place (h : rest <:+ text) :
    readId text (place text rest) = sure ((Segment.readId rest).map (located text)) := by
  by_cases hmark : '#' ∈ rest.head?
  · obtain ⟨rest, rfl⟩ := List.head?_eq_some_iff.mp hmark
    rw [readId, eat_cons (by decide) h]
    show (need (readName text (place text rest)) >>= _) = _
    rw [readName_place ((List.suffix_cons _ _).trans h)]
    cases hname : Text.readName rest with
    | none =>
        rw [Segment.readId, hname]
        rfl
    | some r =>
        rw [Segment.readId_of_name hname]
        rfl
  · rw [readId, eat_of_ne (by decide) h hmark, Segment.readId_of_ne hmark]
    rfl

/-- One round of the loop. -/
lemma readClasses_eq (text : List Char) (i : Nat) :
    readClasses text i =
      match eat text '.' i with
      | none => pure ([], i)
      | some j => do
        match ← need (readName text j) with
        | none => throw .missingClass
        | some (name, k) =>
          let (names, l) ← readClasses text k
          return (String.ofList name :: names, l) := by
  rw [readClasses]
  split
  · next h => rw [h]
  · next j h =>
      rw [h]
      dsimp only
      split
      · next h' =>
          rw [h']
          rfl
      · next h' =>
          rw [h']
          rfl
      · next h' =>
          rw [h']
          rfl

/-- By induction over what is left of the text; each class takes up some of it. -/
lemma readClasses_place (h : rest <:+ text) :
    readClasses text (place text rest) = sure ((Segment.readClasses rest).map (located text)) := by
  rw [readClasses_eq]
  fun_induction Segment.readClasses rest with
  | case1 rest name after hname ih =>
      have hrest := (List.suffix_cons _ _).trans h
      have hafter := (suffix_of_readName hname).trans hrest
      rw [eat_cons (by decide) h]
      show (need (readName text (place text rest)) >>= _) = _
      rw [readName_place hrest, hname]
      show (readClasses text (place text after) >>= _) = _
      rw [readClasses_eq, ih hafter]
      cases Segment.readClasses after <;> rfl
  | case2 rest hname =>
      rw [eat_cons (by decide) h]
      show (need (readName text (place text rest)) >>= _) = _
      rw [readName_place ((List.suffix_cons _ _).trans h), hname]
      rfl
  | case3 rest hne =>
      rw [eat_of_ne (by decide) h (Segment.not_mem_head fun rest heq => hne rest heq)]
      rfl

/-- One round of the loop. -/
lemma readAttributes_eq (text : List Char) (i : Nat) :
    readAttributes text i =
      match eat text '[' i with
      | none => pure ([], i)
      | some j => do
        match ← need (readBracketed text j) with
        | none => throw .openBracket
        | some (body, k) =>
          let test ← attributeTest body
          let (tests, l) ← readAttributes text k
          return (test :: tests, l) := by
  rw [readAttributes]
  split
  · next h => rw [h]
  · next j h =>
      rw [h]
      dsimp only
      split
      · next h' =>
          rw [h']
          rfl
      · next h' =>
          rw [h']
          rfl
      · next h' =>
          rw [h']
          rfl

/-- By induction over what is left of the text; each test takes up some of it. -/
lemma readAttributes_place (h : rest <:+ text) :
    readAttributes text (place text rest) =
      sure ((Segment.readAttributes rest).map (located text)) := by
  rw [readAttributes_eq]
  fun_induction Segment.readAttributes rest with
  | case1 rest body after hbody ih =>
      have hrest := (List.suffix_cons _ _).trans h
      have hafter := (suffix_of_readGroup hbody).trans hrest
      rw [eat_cons (by decide) h]
      show (need (readBracketed text (place text rest)) >>= _) = _
      rw [readBracketed_place hrest, hbody]
      show (attributeTest body >>= _) = _
      rw [attributeTest_eq]
      cases AttributeTest.ofBody body with
      | error cause => rfl
      | ok test =>
          show (readAttributes text (place text after) >>= _) = _
          rw [readAttributes_eq, ih hafter]
          show _ = sure ((Segment.readAttributes after >>= _).map _)
          cases Segment.readAttributes after <;> rfl
  | case2 rest hbody =>
      rw [eat_cons (by decide) h]
      show (need (readBracketed text (place text rest)) >>= _) = _
      rw [readBracketed_place ((List.suffix_cons _ _).trans h), hbody]
      rfl
  | case3 rest hne =>
      rw [eat_of_ne (by decide) h (Segment.not_mem_head fun rest heq => hne rest heq)]
      rfl

/-- An argument is the group behind its parenthesis. -/
lemma readArgument_place (h : rest <:+ text) :
    readArgument text (place text rest) = sure ((Argument.read rest).map (located text)) := by
  by_cases hmark : '(' ∈ rest.head?
  · obtain ⟨rest, rfl⟩ := List.head?_eq_some_iff.mp hmark
    rw [readArgument, eat_cons (by decide) h, Argument.read]
    show (need (readParenthesized text (place text rest)) >>= _) = _
    rw [readParenthesized_place ((List.suffix_cons _ _).trans h)]
    cases Text.readParenthesized rest <;> rfl
  · rw [readArgument, eat_of_ne (by decide) h hmark, Segment.argument_of_ne hmark]
    rfl

lemma readPseudo_place (h : rest <:+ text) :
    readPseudo text (place text rest) = sure ((Segment.readPseudo rest).map (located text)) := by
  by_cases hmark : ':' ∈ rest.head?
  · obtain ⟨rest, rfl⟩ := List.head?_eq_some_iff.mp hmark
    have hrest := (List.suffix_cons _ _).trans h
    rw [readPseudo, eat_cons (by decide) h]
    -- a second colon begins a property, and no pseudo-class is read there
    by_cases hsecond : ':' ∈ rest.head?
    · obtain ⟨rest, rfl⟩ := List.head?_eq_some_iff.mp hsecond
      simp only [eat_cons (by decide) hrest]
      rfl
    · simp only [eat_of_ne (by decide) hrest hsecond]
      show (need (readName text (place text rest)) >>= _) = _
      rw [readName_place hrest]
      cases hname : Text.readName rest with
      | none =>
          rw [Segment.readPseudo_of_none hsecond hname]
          rfl
      | some r =>
          obtain ⟨name, after⟩ := r
          have hafter := (suffix_of_readName hname).trans hrest
          rw [Segment.readPseudo_of_name hname]
          show (readArgument text (place text after) >>= _) = _
          rw [readArgument_place hafter]
          cases Argument.read after <;> rfl
  · rw [readPseudo, eat_of_ne (by decide) h hmark, Segment.readPseudo_of_ne hmark]
    rfl

/-! ### Whole segments -/

/-- All parts of the segment at a position. Without any part, the text from the
position on is asked for. -/
def readCompound (text : List Char) (i : Nat) : ExceptT Cause Option (Segment × Nat) := do
  let (tag, i) ← need (readTag text i)
  let (id, i) ← readId text i
  let (classes, i) ← readClasses text i
  let (attributes, i) ← readAttributes text i
  let (pseudo, i) ← readPseudo text i
  let segment : Segment := { tag, id, classes, attributes, pseudo }
  if segment.tag.isSome || segment.isConstrained then return (segment, i)
  else
    let (_, remaining) ← need (splitAt? i text)
    match remaining with
    | c :: _ => throw (.unexpected c)
    | [] => throw .bareSegment

/-- The separator at a position. Where there should be one and is none, the text
from the position on is asked for. -/
def readCombinator (text : List Char) (i : Nat) : ExceptT Cause Option (Combinator × Nat) :=
  let j := skipBlanks text i
  match eat text '>' j with
  | some k => return (.child, skipBlanks text k)
  | none =>
    if j = i ∧ j < size text then do
      let (_, remaining) ← need (splitAt? j text)
      throw (.unexpected (remaining.headD '\x00'))
    else return (.descendant, j)

/-- The segment at a position with its separator, and the number of bytes from
the position to behind it. -/
def parseAt (text : List Char) (start : Nat) : ExceptT Cause Option (Segment × Nat) := do
  let i := skipBlanks text (min start (size text))
  if size text ≤ i then throw .emptySelector
  else
    let (segment, i) ← readCompound text i
    let (combinator, i) ← readCombinator text i
    let consumed ← need (if start ≤ i then some (i - start) else none)
    return ({ segment with combinator }, consumed)

lemma suffix_of_takes {β : Type} {read : List Char → Except Cause (β × List Char)} {b : β}
    {after : List Char} (h : Segment.Takes read rest b after) : after <:+ rest := by
  obtain ⟨taken, rfl, -⟩ := h
  exact List.suffix_append taken after

/-- Part by part: each begins where the one before it ends. -/
lemma readCompound_place (h : rest <:+ text) :
    readCompound text (place text rest) =
      sure ((Segment.readCompound rest).map (located text)) := by
  -- part by part; each one begins at a place of the text, as a suffix of what was left
  have htag := (suffix_of_takes (Segment.takes_readTag rest)).trans h
  rw [readCompound, readTag_place h, need_some, sure_ok_bind, Segment.readCompound]
  generalize Segment.readTag rest = tag at htag
  obtain ⟨tag, afterTag⟩ := tag
  show (readId text (place text afterTag) >>= _) = _
  rw [readId_place htag]
  refine sure_bind fun found hfound => ?_
  have hid := (suffix_of_takes (Segment.takes_readId hfound)).trans htag
  obtain ⟨id, afterId⟩ := found
  show (readClasses text (place text afterId) >>= _) = _
  rw [readClasses_place hid]
  refine sure_bind fun found hfound => ?_
  have hclasses := (suffix_of_takes (Segment.takes_readClasses hfound)).trans hid
  obtain ⟨classes, afterClasses⟩ := found
  show (readAttributes text (place text afterClasses) >>= _) = _
  rw [readAttributes_place hclasses]
  refine sure_bind fun found hfound => ?_
  have hattributes := (suffix_of_takes (Segment.takes_readAttributes hfound)).trans hclasses
  obtain ⟨attributes, afterAttributes⟩ := found
  show (readPseudo text (place text afterAttributes) >>= _) = _
  rw [readPseudo_place hattributes]
  refine sure_bind fun found hfound => ?_
  have hpseudo := (suffix_of_takes (Segment.takes_readPseudo hfound)).trans hattributes
  obtain ⟨pseudo, after⟩ := found
  -- where no part was there, the character that follows is the one to blame
  obtain ⟨before, -, hsplit⟩ := splitAt?_place hpseudo
  dsimp only [located] at hsplit ⊢
  rw [hsplit]
  split
  · rfl
  · cases after <;> rfl

/-- Blanks at a place are passed over exactly if there are any. -/
lemma place_skipBlanks (h : rest <:+ text) :
    place text (Text.skipBlanks rest) = place text rest ↔
      rest.head?.any Symbol.isBlank = false := by
  cases rest with
  | nil => simp [Text.skipBlanks]
  | cons c rest =>
      by_cases hc : Symbol.isBlank c = true
      · have hskip : Text.skipBlanks (c :: rest) = Text.skipBlanks rest := by
          simp [Text.skipBlanks, hc]
        have hlt : place text (c :: rest) < place text (Text.skipBlanks rest) := by
          obtain ⟨before, hbefore⟩ := skipBlanks_suffix rest
          have hplace := place_of_append (show (c :: before) ++ Text.skipBlanks rest <:+ text by
            rwa [List.cons_append, hbefore])
          have hpos := size_pos (List.cons_ne_nil c before)
          rw [List.cons_append, hbefore] at hplace
          omega
        rw [hskip]
        simp only [List.head?_cons, Option.any_some, hc, Bool.true_eq_false, iff_false]
        omega
      · simp [Text.skipBlanks, hc]

/-- Without `>` a separator is made of blanks alone. -/
lemma readCombinator_of_ne {c : Char} {after : List Char} (h : Text.skipBlanks rest = c :: after)
    (hc : c ≠ '>') :
    Segment.readCombinator rest =
      if rest.head?.any Symbol.isBlank then .ok (.descendant, c :: after)
      else .error (.unexpected c) := by
  rw [Segment.readCombinator, h]
  split
  · next heq => exact absurd (List.cons.inj heq).1 hc
  · next heq => simp at heq
  · next heq =>
      obtain ⟨rfl, rfl⟩ := List.cons.inj heq
      rfl

lemma readCombinator_place (h : rest <:+ text) :
    readCombinator text (place text rest) =
      sure ((Segment.readCombinator rest).map (located text)) := by
  have hskip := (skipBlanks_suffix rest).trans h
  have hblank := place_skipBlanks h
  obtain ⟨before, -, hsplit⟩ := splitAt?_place hskip
  rw [readCombinator, skipBlanks_place h, hsplit]
  cases hskipped : Text.skipBlanks rest with
  | nil =>
      rw [hskipped] at hskip
      rw [eat_of_ne (by decide) hskip (by simp), Segment.readCombinator, hskipped]
      simp [Except.map, located, pure_eq_sure]
  | cons c after =>
      rw [hskipped] at hskip hblank
      by_cases hc : c = '>'
      · subst hc
        rw [eat_cons (by decide) hskip, Segment.readCombinator, hskipped]
        dsimp only
        rw [skipBlanks_place ((List.suffix_cons _ _).trans hskip)]
        rfl
      · -- without `>` the places decide whether there was a blank; the characters say the same
        have hlt := place_lt_size hskip (List.cons_ne_nil c after)
        rw [eat_of_ne (by decide) hskip (by simpa using hc), readCombinator_of_ne hskipped hc]
        dsimp only
        by_cases hany : rest.head?.any Symbol.isBlank = true
        · have hspaced : ¬ (place text (c :: after) = place text rest ∧
              place text (c :: after) < size text) := by
            rintro ⟨heq, -⟩
            simp [hblank.mp heq] at hany
          rw [if_neg hspaced, if_pos hany]
          rfl
        · rw [if_pos ⟨hblank.mpr (Bool.eq_false_iff.mpr hany), hlt⟩, if_neg hany]
          rfl

lemma suffix_of_readCombinator {k : Combinator} {after : List Char}
    (h : Segment.readCombinator rest = .ok (k, after)) : after <:+ rest := by
  have hskip := skipBlanks_suffix rest
  rw [Segment.readCombinator] at h
  split at h
  · next behind heq =>
      obtain ⟨-, rfl⟩ := Prod.mk.inj (Except.ok.inj h)
      rw [heq] at hskip
      exact ((skipBlanks_suffix behind).trans (List.suffix_cons _ _)).trans hskip
  · obtain ⟨-, rfl⟩ := Prod.mk.inj (Except.ok.inj h)
    exact List.nil_suffix
  · next heq =>
      split_ifs at h
      obtain ⟨-, rfl⟩ := Prod.mk.inj (Except.ok.inj h)
      rwa [heq] at hskip

lemma suffix_of_read {segment : Segment} {after : List Char}
    (h : Segment.read rest = .ok (segment, after)) : after <:+ rest := by
  obtain ⟨compound, behind, combinator, hcompound, hcombinator, -⟩ := Segment.read_eq_ok h
  have hbehind := suffix_of_takes (Segment.takes_readCompound hcompound)
  exact ((suffix_of_readCombinator hcombinator).trans hbehind).trans (skipBlanks_suffix rest)

/-- Every segment takes up bytes. -/
lemma place_lt_of_read (h : rest <:+ text) {segment : Segment} {after : List Char}
    (hread : Segment.read rest = .ok (segment, after)) : place text rest < place text after := by
  have hlength := Segment.length_of_read hread
  obtain ⟨taken, rfl⟩ := suffix_of_read hread
  have htaken : taken ≠ [] := by
    rintro rfl
    simp at hlength
  have hpos := size_pos htaken
  have hplace := place_of_append h
  omega

/-- A segment is read as it is over the characters, and takes up the bytes
between two places. -/
theorem parseAt_place (h : rest <:+ text) :
    parseAt text (place text rest) =
      sure ((Segment.read rest).map fun found =>
        (found.1, place text found.2 - place text rest)) := by
  have hskip := (skipBlanks_suffix rest).trans h
  rw [parseAt, Nat.min_eq_left (place_le_size text rest), skipBlanks_place h, Segment.read]
  by_cases hempty : Text.skipBlanks rest = []
  · rw [hempty]
    simp [Except.map, throw_eq_sure]
  · have hlt := place_lt_size hskip hempty
    rw [if_neg (by omega), if_neg (by simpa using hempty), readCompound_place hskip]
    refine sure_bind fun found hfound => ?_
    have hcompound := suffix_of_takes (Segment.takes_readCompound hfound)
    obtain ⟨segment, after⟩ := found
    show (readCombinator text (place text after) >>= _) = _
    rw [readCombinator_place (hcompound.trans hskip)]
    refine sure_bind fun found hfound' => ?_
    obtain ⟨k, last⟩ := found
    have hlast : last <:+ rest :=
      ((suffix_of_readCombinator hfound').trans hcompound).trans (skipBlanks_suffix rest)
    have hle : place text rest ≤ place text last := by
      obtain ⟨taken, rfl⟩ := hlast
      have hplace := place_of_append h
      omega
    dsimp only [located]
    rw [if_pos hle]
    rfl

end SelectorPath.Bytewise
