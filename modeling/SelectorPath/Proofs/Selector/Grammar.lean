/-
The grammar of a segment.

A segment is written as blanks, an element name, an id, classes, attribute
tests, a pseudo-class and a separator, in this order. All parts but the
separator may be left out, though not all of them at once. Each part has a
grammar of its own, which says what the text of the part stands for and how far
it reaches: names and runs of blanks are taken as long as they are.

* `Segment.SpelledTag`, `Segment.SpelledId`, `Segment.SpelledClasses`,
  `Segment.SpelledAttributes`, `Segment.SpelledPseudo`,
  `Segment.SpelledSeparator`: the grammars of the parts.
* `Segment.Spelled`: the grammar of a segment.
* `Segment.Begins`: how a text begins where a part has been left out. No reader
  takes the mark of a later part for its own.
* `AttributeTest.WellFormed`: what holds of all tests that are read.
* `Segment.parse_follows_grammar`: a segment is read exactly where the grammar
  has one.
-/
import SelectorPath.Proofs.Selector.Spacing
import SelectorPath.Proofs.Text.Groups

namespace SelectorPath

open Text

/-! ### Attribute tests -/

/-- The parts of an attribute test go together. -/
structure AttributeTest.WellFormed (test : AttributeTest) : Prop where
  name_ne : test.name ≠ ""
  name_symbols : ∀ c ∈ test.name.toList, Symbol.isName c = true ∨ c = ':'
  valued : test.op.needsValue = true → test.value.isSome = true
  valueless : test.op = .absent → test.value = none

/-- What has been checked is well formed. -/
lemma AttributeTest.wellFormed_of_checked {body name : List Char} {op : Operator}
    {value : Option String} {test : AttributeTest} (h : checked body name op value = .ok test) :
    test.WellFormed := by
  rw [checked] at h
  split_ifs at h with hempty hsymbols hneeds habsent
  obtain rfl := Except.ok.inj h
  refine ⟨?_, ?_, ?_, ?_⟩
  · simpa [String.ext_iff] using hempty
  · simpa only [Bool.not_eq_true', Bool.not_eq_false, List.all_eq_true, isNameSymbol,
      Bool.or_eq_true, beq_iff_eq, String.toList_ofList] using hsymbols
  · intro hop
    cases value with
    | none => simp [hop] at hneeds
    | some value => rfl
  · intro hop
    cases value with
    | none => rfl
    | some value => exact absurd hop (by simpa using habsent)

lemma AttributeTest.wellFormed_of_ofBody {body : List Char} {test : AttributeTest}
    (h : ofBody body = .ok test) : test.WellFormed := by
  obtain ⟨_, _, h⟩ := Error.bind_eq_ok.mp h
  exact wellFormed_of_checked h

namespace Segment

/-! ### The grammars of the parts -/

/-- A name that cannot be longer in front of the text after it. -/
structure IsName (name after : List Char) : Prop where
  ne_nil : name ≠ []
  symbols : ∀ c ∈ name, Symbol.isName c = true
  maximal : ∀ c ∈ after.head?, Symbol.isName c = false

/-- A run of blanks that cannot be longer in front of the text after it. -/
structure IsBlankRun (blanks after : List Char) : Prop where
  symbols : IsBlanks blanks
  maximal : ∀ c ∈ after.head?, Symbol.isBlank c = false

/-- An element name, or `*`. -/
inductive SpelledTag (after : List Char) : Option NodeTest → List Char → Prop
  | none : SpelledTag after none []
  | any : SpelledTag after (some .any) ['*']
  | name {name : List Char} : IsName name after →
      SpelledTag after (some (.named (String.ofList name))) name

/-- An id. -/
inductive SpelledId (after : List Char) : Option String → List Char → Prop
  | none : SpelledId after none []
  | name {name : List Char} : IsName name after →
      SpelledId after (some (String.ofList name)) ('#' :: name)

/-- Classes, one after the other. -/
inductive SpelledClasses (after : List Char) : List String → List Char → Prop
  | nil : SpelledClasses after [] []
  | cons {name text : List Char} {names : List String} : IsName name (text ++ after) →
      SpelledClasses after names text →
        SpelledClasses after (String.ofList name :: names) ('.' :: (name ++ text))

/-- Attribute tests, one after the other. Their bodies have no `]` outside of
quotations. -/
inductive SpelledAttributes : List AttributeTest → List Char → Prop
  | nil : SpelledAttributes [] []
  | cons {body text : List Char} {test : AttributeTest} {tests : List AttributeTest} :
      Grouped .square body → AttributeTest.ofBody body = .ok test →
        SpelledAttributes tests text →
          SpelledAttributes (test :: tests) ('[' :: (body ++ ']' :: text))

/-- A pseudo-class with or without an argument. -/
inductive SpelledPseudo (after : List Char) : Option Pseudo → List Char → Prop
  | none : SpelledPseudo after none []
  | bare {name : List Char} : IsName name after →
      SpelledPseudo after (some ⟨String.ofList name, none⟩) (':' :: name)
  | argument {name raw : List Char} : IsName name ('(' :: (raw ++ ')' :: after)) →
      Grouped .round raw →
        SpelledPseudo after (some ⟨String.ofList name, some (String.ofList (trim raw))⟩)
          (':' :: (name ++ '(' :: (raw ++ [')'])))

/-- A separator: `>` with blanks around it, blanks alone, or nothing at the end
of the text. -/
inductive SpelledSeparator (after : List Char) : List Char → Prop
  | child {left right : List Char} : IsBlanks left → IsBlankRun right after →
      SpelledSeparator after (left ++ '>' :: right)
  | blanks {blanks : List Char} : blanks ≠ [] → IsBlankRun blanks after → '>' ∉ after.head? →
      SpelledSeparator after blanks
  | ending : after = [] → SpelledSeparator after []

/-- A segment with its separator, in front of the text after it. -/
def Spelled (after : List Char) (segment : Segment) (text : List Char) : Prop :=
  ∃ blanks tag id classes attributes pseudo separator,
    text = blanks ++ (tag ++ (id ++ (classes ++ (attributes ++ (pseudo ++ separator))))) ∧
      IsBlankRun blanks
        (tag ++ (id ++ (classes ++ (attributes ++ (pseudo ++ (separator ++ after)))))) ∧
      SpelledTag (id ++ (classes ++ (attributes ++ (pseudo ++ (separator ++ after)))))
        segment.tag tag ∧
      SpelledId (classes ++ (attributes ++ (pseudo ++ (separator ++ after)))) segment.id id ∧
      SpelledClasses (attributes ++ (pseudo ++ (separator ++ after))) segment.classes classes ∧
      SpelledAttributes segment.attributes attributes ∧
      SpelledPseudo (separator ++ after) segment.pseudo pseudo ∧
      SpelledSeparator after separator ∧ (segment.combinator = .child ↔ '>' ∈ separator) ∧
      (segment.tag.isSome || segment.isConstrained) = true

/-- A name that is read stands at the front, and the rest does not go on with it. -/
lemma isName_of_readName {text name rest : List Char} (h : readName text = some (name, rest)) :
    text = name ++ rest ∧ IsName name rest := by
  obtain ⟨hne, htext, hsymbols, hmaximal⟩ := readName_eq_some_iff.mp h
  exact ⟨htext, hne, hsymbols, hmaximal⟩

lemma IsName.readName_eq_some {name rest : List Char} (h : IsName name rest) :
    readName (name ++ rest) = some (name, rest) :=
  readName_eq_some_iff.mpr ⟨h.ne_nil, rfl, h.symbols, h.maximal⟩

/-! ### What is read is spelled -/

/-- What a tag was read from spells it. -/
lemma spelled_of_readTag {text after : List Char} {tag : Option NodeTest}
    (h : readTag text = (tag, after)) :
    ∃ taken, text = taken ++ after ∧ SpelledTag after tag taken := by
  by_cases hmark : '*' ∈ text.head?
  · obtain ⟨rest, rfl⟩ := List.head?_eq_some_iff.mp hmark
    obtain ⟨rfl, rfl⟩ := Prod.mk.inj h
    exact ⟨['*'], rfl, .any⟩
  · cases hname : readName text with
    | none =>
        obtain ⟨rfl, rfl⟩ := by simpa [readTag_of_none hmark hname] using h
        exact ⟨[], rfl, .none⟩
    | some r =>
        obtain ⟨name, rest⟩ := r
        obtain ⟨rfl, rfl⟩ := by simpa [readTag_of_name hname] using h
        obtain ⟨htext, hname⟩ := isName_of_readName hname
        exact ⟨name, htext, .name hname⟩

lemma spelled_of_readId {text after : List Char} {id : Option String}
    (h : readId text = .ok (id, after)) :
    ∃ taken, text = taken ++ after ∧ SpelledId after id taken := by
  by_cases hmark : '#' ∈ text.head?
  · obtain ⟨text, rfl⟩ := List.head?_eq_some_iff.mp hmark
    cases hname : readName text with
    | none =>
        rw [readId, hname] at h
        simp at h
    | some r =>
        obtain ⟨name, rest⟩ := r
        obtain ⟨rfl, rfl⟩ := by simpa [readId_of_name hname] using h
        obtain ⟨rfl, hname'⟩ := isName_of_readName hname
        exact ⟨'#' :: name, rfl, .name hname'⟩
  · obtain ⟨rfl, rfl⟩ := by simpa [readId_of_ne hmark] using h
    exact ⟨[], rfl, .none⟩

/-- Class by class, along the recursion of the reader. -/
lemma spelled_of_readClasses {text after : List Char} {classes : List String}
    (h : readClasses text = .ok (classes, after)) :
    ∃ taken, text = taken ++ after ∧ SpelledClasses after classes taken := by
  fun_induction readClasses text generalizing classes with
  | case1 text name rest hname ih =>
      obtain ⟨⟨names, last⟩, hread, hret⟩ := Error.bind_eq_ok.mp h
      obtain ⟨rfl, rfl⟩ := Prod.mk.inj (Error.pure_eq_ok.mp hret)
      obtain ⟨taken, rfl, htaken⟩ := ih hread
      obtain ⟨rfl, hname'⟩ := isName_of_readName hname
      exact ⟨'.' :: (name ++ taken), by simp, .cons hname' htaken⟩
  | case2 => simp at h
  | case3 text hne =>
      obtain ⟨rfl, rfl⟩ := by simpa using h
      exact ⟨[], rfl, .nil⟩

/-- Test by test, along the recursion of the reader. -/
lemma spelled_of_readAttributes {text after : List Char} {tests : List AttributeTest}
    (h : readAttributes text = .ok (tests, after)) :
    ∃ taken, text = taken ++ after ∧ SpelledAttributes tests taken := by
  fun_induction readAttributes text generalizing tests with
  | case1 text body rest hbody ih =>
      obtain ⟨test, htest, h⟩ := Error.bind_eq_ok.mp h
      obtain ⟨⟨more, last⟩, hread, hret⟩ := Error.bind_eq_ok.mp h
      obtain ⟨rfl, rfl⟩ := Prod.mk.inj (Error.pure_eq_ok.mp hret)
      obtain ⟨taken, rfl, htaken⟩ := ih hread
      obtain ⟨hgrouped, rfl⟩ := readBracketed_eq_some_iff.mp hbody
      exact ⟨'[' :: (body ++ ']' :: taken), by simp, .cons hgrouped htest htaken⟩
  | case2 => simp at h
  | case3 text hne =>
      obtain ⟨rfl, rfl⟩ := by simpa using h
      exact ⟨[], rfl, .nil⟩

/-- What a pseudo-class was read from spells it, with its argument. -/
lemma spelled_of_readPseudo {text after : List Char} {pseudo : Option Pseudo}
    (h : readPseudo text = .ok (pseudo, after)) :
    ∃ taken, text = taken ++ after ∧ SpelledPseudo after pseudo taken := by
  rw [readPseudo.eq_def] at h
  split at h
  · simp at h
  · next text _ =>
      split at h
      · next name rest hname =>
          obtain ⟨⟨argument, last⟩, hargument, hret⟩ := Error.bind_eq_ok.mp h
          obtain ⟨rfl, rfl⟩ := Prod.mk.inj (Error.pure_eq_ok.mp hret)
          obtain ⟨rfl, hname'⟩ := isName_of_readName hname
          rw [Argument.read.eq_def] at hargument
          split at hargument
          · next rest =>
              split at hargument
              · next raw last' hraw =>
                  obtain ⟨rfl, rfl⟩ := by simpa using hargument
                  obtain ⟨hgrouped, rfl⟩ := readParenthesized_eq_some_iff.mp hraw
                  exact ⟨':' :: (name ++ '(' :: (raw ++ [')'])), by simp,
                    .argument hname' hgrouped⟩
              · simp at hargument
          · obtain ⟨rfl, rfl⟩ := by simpa using hargument
            exact ⟨':' :: name, rfl, .bare hname'⟩
      · simp at h
  · obtain ⟨rfl, rfl⟩ := by simpa using h
    exact ⟨[], rfl, .none⟩

lemma child_not_mem {blanks : List Char} (h : IsBlanks blanks) : '>' ∉ blanks :=
  fun hmem => absurd (h '>' hmem) (by decide)

/-- A separator is a child combinator if there is an arrow in it. -/
lemma spelled_of_readCombinator {text after : List Char} {k : Combinator}
    (h : readCombinator text = .ok (k, after)) :
    ∃ taken, text = taken ++ after ∧ SpelledSeparator after taken ∧
      (k = .child ↔ '>' ∈ taken) := by
  obtain ⟨blanks, htext, hblanks⟩ := exists_skipBlanks text
  have hhead := head_skipBlanks text
  rw [readCombinator] at h
  split at h
  · next rest heq =>
      obtain ⟨rfl, rfl⟩ := by simpa using h
      obtain ⟨right, hrest, hright⟩ := exists_skipBlanks rest
      refine ⟨blanks ++ '>' :: right, ?_, .child hblanks ⟨hright, head_skipBlanks rest⟩, by simp⟩
      calc text = blanks ++ '>' :: rest := by rw [← heq, ← htext]
        _ = blanks ++ '>' :: (right ++ skipBlanks rest) := by rw [← hrest]
        _ = blanks ++ '>' :: right ++ skipBlanks rest := by simp
  · next heq =>
      obtain ⟨rfl, rfl⟩ := by simpa using h
      rw [heq] at htext
      refine ⟨blanks, htext, ?_, by simp [child_not_mem hblanks]⟩
      by_cases hnil : blanks = []
      · rw [hnil]
        exact .ending rfl
      · exact .blanks hnil ⟨hblanks, by simp⟩ (by simp)
  · next c rest hne heq =>
      split_ifs at h with hany
      obtain ⟨rfl, rfl⟩ := by simpa using h
      rw [heq] at htext hhead
      refine ⟨blanks, htext, .blanks ?_ ⟨hblanks, hhead⟩ ?_, by simp [child_not_mem hblanks]⟩
      · -- without a blank there would have been an error
        rintro rfl
        have hblank : Symbol.isBlank c = true := by simpa [htext] using hany
        exact absurd hblank (by simp [hhead c rfl])
      · intro hmem
        exact hne (Option.some.inj hmem)

/-! ### What is spelled is read -/

/-- The text is empty, or begins with a blank or one of the marks. -/
def Begins (marks text : List Char) : Prop :=
  ∀ c ∈ text.head?, Symbol.isBlank c = true ∨ c ∈ marks

namespace Begins

variable {marks text : List Char}

/-- A part that begins with a mark of its own, or is left out, adds its mark. -/
lemma append (h : Begins marks text) {mark : Char} {part : List Char}
    (hpart : part = [] ∨ part.head? = some mark) : Begins (mark :: marks) (part ++ text) := by
  intro c hc
  rcases hpart with rfl | hmark
  · exact (h c hc).imp_right (List.mem_cons_of_mem mark)
  · rw [List.head?_append, hmark] at hc
    obtain rfl := Option.some.inj hc
    exact .inr List.mem_cons_self

/-- A mark that is neither allowed nor a blank does not stand first. -/
lemma not_mem (h : Begins marks text) {mark : Char} (hblank : Symbol.isBlank mark = false)
    (hmark : mark ∉ marks) : mark ∉ text.head? := by
  intro hmem
  rcases h mark hmem with hc | hc
  · simp [hblank] at hc
  · exact hmark hc

/-- A text that begins with a mark has no name at its front. -/
lemma readName_eq_none (h : Begins marks text)
    (hmarks : marks.all fun m => !Symbol.isName m) : readName text = none := by
  refine readName_eq_none_iff.mpr fun c hc => ?_
  rcases h c hc with hblank | hmem
  · rw [← Bool.not_eq_true]
    intro hname
    simp [(isName_not_separator c hname).1] at hblank
  · simpa using List.all_eq_true.mp hmarks c hmem

end Begins

section

variable {after text : List Char}

/-- A part that is there begins with its mark. -/
lemma SpelledId.head {id : Option String} (h : SpelledId after id text) :
    text = [] ∨ text.head? = some '#' := by
  cases h with
  | none => exact .inl rfl
  | name => exact .inr rfl

lemma SpelledClasses.head {classes : List String} (h : SpelledClasses after classes text) :
    text = [] ∨ text.head? = some '.' := by
  cases h with
  | nil => exact .inl rfl
  | cons => exact .inr rfl

lemma SpelledAttributes.head {tests : List AttributeTest} (h : SpelledAttributes tests text) :
    text = [] ∨ text.head? = some '[' := by
  cases h with
  | nil => exact .inl rfl
  | cons => exact .inr rfl

lemma SpelledPseudo.head {pseudo : Option Pseudo} (h : SpelledPseudo after pseudo text) :
    text = [] ∨ text.head? = some ':' := by
  cases h with
  | none => exact .inl rfl
  | bare => exact .inr rfl
  | argument => exact .inr rfl

/-- After a segment there is the end, a blank or an arrow. -/
lemma SpelledSeparator.begins (h : SpelledSeparator after text) :
    Begins ['>'] (text ++ after) := by
  intro c hc
  cases h with
  | @child left right hleft _ =>
      cases left with
      | nil =>
          obtain rfl := Option.some.inj hc
          exact .inr List.mem_cons_self
      | cons b left =>
          obtain rfl := Option.some.inj hc
          exact .inl (hleft b List.mem_cons_self)
  | blanks hne hrun _ =>
      rw [List.head?_append_of_ne_nil _ hne] at hc
      exact .inl (hrun.symbols c (List.mem_of_mem_head? hc))
  | ending hnil =>
      subst hnil
      simp at hc

/-- A tag that is spelled is read, whatever parts come after it. -/
lemma SpelledTag.readTag_eq {tag : Option NodeTest} (h : SpelledTag after tag text)
    (hafter : Begins ['#', '.', '[', ':', '>'] after) : readTag (text ++ after) = (tag, after) := by
  cases h with
  | none =>
      exact readTag_of_none (hafter.not_mem (by decide) (by decide))
        (hafter.readName_eq_none (by decide))
  | any => rfl
  | name hname => exact readTag_of_name hname.readName_eq_some

lemma SpelledId.readId_eq {id : Option String} (h : SpelledId after id text)
    (hafter : Begins ['.', '[', ':', '>'] after) : readId (text ++ after) = .ok (id, after) := by
  cases h with
  | none => exact readId_of_ne (hafter.not_mem (by decide) (by decide))
  | name hname => exact readId_of_name hname.readName_eq_some

/-- By induction on the spelling, class by class. -/
lemma SpelledClasses.readClasses_eq {classes : List String}
    (h : SpelledClasses after classes text) (hafter : Begins ['[', ':', '>'] after) :
    readClasses (text ++ after) = .ok (classes, after) := by
  induction h with
  | nil => exact readClasses_of_ne (hafter.not_mem (by decide) (by decide))
  | cons hname _ ih =>
      rw [List.cons_append, List.append_assoc, readClasses_of_name hname.readName_eq_some, ih]
      rfl

/-- By induction on the spelling, test by test. -/
lemma SpelledAttributes.readAttributes_eq {tests : List AttributeTest}
    (h : SpelledAttributes tests text) (hafter : Begins [':', '>'] after) :
    readAttributes (text ++ after) = .ok (tests, after) := by
  induction h with
  | nil => exact readAttributes_of_ne (hafter.not_mem (by decide) (by decide))
  | @cons body text test tests hbody htest _ ih =>
      have hread : readBracketed (body ++ ']' :: (text ++ after)) = some (body, text ++ after) :=
        readBracketed_eq_some_iff.mpr ⟨hbody, rfl⟩
      rw [List.cons_append, List.append_assoc, List.cons_append, readAttributes_of_body hread,
        htest]
      show (readAttributes (text ++ after) >>= _) = _
      rw [ih]
      rfl

/-- A pseudo-class that is spelled is read, with its argument if it has one. -/
lemma SpelledPseudo.readPseudo_eq {pseudo : Option Pseudo} (h : SpelledPseudo after pseudo text)
    (hafter : Begins ['>'] after) : readPseudo (text ++ after) = .ok (pseudo, after) := by
  cases h with
  | none => exact readPseudo_of_ne (hafter.not_mem (by decide) (by decide))
  | bare hname =>
      rw [List.cons_append, readPseudo_of_name hname.readName_eq_some,
        argument_of_ne (hafter.not_mem (by decide) (by decide))]
      rfl
  | @argument name raw hname hraw =>
      have hread : readParenthesized (raw ++ ')' :: after) = some (raw, after) :=
        readParenthesized_eq_some_iff.mpr ⟨hraw, rfl⟩
      have hargument : Argument.read ('(' :: (raw ++ ')' :: after)) = .ok (some raw, after) := by
        rw [Argument.read, hread]
      have htext : ':' :: (name ++ '(' :: (raw ++ [')'])) ++ after =
          ':' :: (name ++ '(' :: (raw ++ ')' :: after)) := by simp
      rw [htext, readPseudo_of_name hname.readName_eq_some, hargument]
      rfl

/-- A separator that is spelled is read as the combinator that its arrow says. -/
lemma SpelledSeparator.readCombinator_eq (h : SpelledSeparator after text) {k : Combinator}
    (hk : k = .child ↔ '>' ∈ text) : readCombinator (text ++ after) = .ok (k, after) := by
  have hblanks : ∀ {blanks : List Char}, text = blanks → IsBlanks blanks → k = .descendant := by
    rintro _ rfl hblanks
    cases k with
    | descendant => rfl
    | child => exact absurd (hk.mp rfl) (child_not_mem hblanks)
  cases h with
  | @child left right hleft hright =>
      obtain rfl : k = .child := hk.mpr (by simp)
      -- the blanks on the left end at the mark, so the reader finds it
      have hmark : ∀ c ∈ ('>' :: (right ++ after)).head?, Symbol.isBlank c = false := by
        intro c hc
        obtain rfl := Option.some.inj hc
        decide
      rw [List.append_assoc, List.cons_append, readCombinator, skipBlanks_append hleft hmark]
      show Except.ok (Combinator.child, skipBlanks (right ++ after)) = _
      rw [skipBlanks_append hright.symbols hright.maximal]
  | blanks hne hrun hchild =>
      obtain rfl := hblanks rfl hrun.symbols
      obtain ⟨b, blanks, rfl⟩ := List.exists_cons_of_ne_nil hne
      have hany : (b :: blanks ++ after).head?.any Symbol.isBlank = true :=
        hrun.symbols b List.mem_cons_self
      rw [readCombinator, skipBlanks_append hrun.symbols hrun.maximal]
      split
      · simp at hchild
      · rfl
      · rw [if_pos hany]
  | ending hnil =>
      obtain rfl := hblanks rfl (by simp [IsBlanks])
      subst hnil
      rfl

end

/-! ### Whole segments -/

/-- Blanks in front of a segment do not change it. -/
lemma read_append_blanks {blanks text : List Char} (h : IsBlankRun blanks text) :
    read (blanks ++ text) = read text := by
  rw [read, read, skipBlanks_append h.symbols h.maximal, skipBlanks_eq_self h.maximal]

/-- **A segment is read exactly where it is spelled.** -/
theorem read_eq_ok_iff {text after : List Char} {segment : Segment} :
    read text = .ok (segment, after) ↔
      ∃ taken, text = taken ++ after ∧ Spelled after segment taken := by
  constructor
  · intro h
    obtain ⟨compound, rest, k, hcompound, hk, rfl⟩ := read_eq_ok h
    obtain ⟨afterTag, afterId, afterClasses, afterAttributes, htag, hid, hclasses, hattributes,
      hpseudo, -, hpart⟩ := readCompound_eq_ok.mp hcompound
    obtain ⟨blanks, htext, hblanks⟩ := exists_skipBlanks text
    have hmaximal := head_skipBlanks text
    obtain ⟨tag, hskip, htag'⟩ := spelled_of_readTag htag
    obtain ⟨id, rfl, hid'⟩ := spelled_of_readId hid
    obtain ⟨classes, rfl, hclasses'⟩ := spelled_of_readClasses hclasses
    obtain ⟨attributes, rfl, hattributes'⟩ := spelled_of_readAttributes hattributes
    obtain ⟨pseudo, rfl, hpseudo'⟩ := spelled_of_readPseudo hpseudo
    obtain ⟨separator, rfl, hseparator, hchild⟩ := spelled_of_readCombinator hk
    rw [hskip] at htext hmaximal
    refine ⟨_, ?_, blanks, tag, id, classes, attributes, pseudo, separator, rfl,
      ⟨hblanks, hmaximal⟩, htag', hid', hclasses', hattributes', hpseudo', hseparator, hchild,
      hpart⟩
    simpa using htext
  · rintro ⟨_, rfl, blanks, tag, id, classes, attributes, pseudo, separator, rfl, hblanks, htag,
      hid, hclasses, hattributes, hpseudo, hseparator, hchild, hpart⟩
    -- from the back: a part that is left out shows the marks of the later ones
    have h₄ := hseparator.begins
    have h₃ := h₄.append hpseudo.head
    have h₂ := h₃.append hattributes.head
    have h₁ := h₂.append hclasses.head
    have h₀ := h₁.append hid.head
    have hcompound : readCompound
        (tag ++ (id ++ (classes ++ (attributes ++ (pseudo ++ (separator ++ after)))))) =
        .ok ({ segment with combinator := .descendant }, separator ++ after) :=
      readCompound_eq_ok.mpr ⟨_, _, _, _, htag.readTag_eq h₀, hid.readId_eq h₁,
        hclasses.readClasses_eq h₂, hattributes.readAttributes_eq h₃, hpseudo.readPseudo_eq h₄,
        rfl, hpart⟩
    have hread := Clause.read_of_readCompound hcompound (hseparator.readCombinator_eq hchild)
    rw [← read_append_blanks hblanks] at hread
    simpa using hread

lemma SpelledAttributes.wellFormed {tests : List AttributeTest} {text : List Char}
    (h : SpelledAttributes tests text) : ∀ test ∈ tests, test.WellFormed := by
  induction h with
  | nil => simp
  | cons _ htest _ ih =>
      exact List.forall_mem_cons.mpr ⟨AttributeTest.wellFormed_of_ofBody htest, ih⟩

/-- The text that is taken is measured in bytes. -/
lemma parse_eq_ok_iff {text : String} {segment : Segment} {n : Nat} :
    parse text = .ok (segment, n) ↔
      ∃ taken after, text.toList = taken ++ after ∧ (String.ofList taken).utf8ByteSize = n ∧
        Spelled after segment taken := by
  have hsize : ∀ {taken after : List Char}, text.toList = taken ++ after →
      text.utf8ByteSize - (String.ofList after).utf8ByteSize =
        (String.ofList taken).utf8ByteSize := by
    intro taken after h
    have htext : text = String.ofList taken ++ String.ofList after := by
      rw [← String.ofList_append, ← h, String.ofList_toList]
    rw [htext, String.utf8ByteSize_append, Nat.add_sub_cancel]
  constructor
  · intro h
    cases hread : read text.toList with
    | error cause => simp [parse, hread, Error.blame, Except.map] at h
    | ok found =>
        obtain ⟨segment', after⟩ := found
        rw [parse, Error.blame_eq_ok.mpr hread] at h
        obtain ⟨rfl, rfl⟩ := Prod.mk.inj (Except.ok.inj h)
        obtain ⟨taken, htext, hspelled⟩ := read_eq_ok_iff.mp hread
        exact ⟨taken, after, htext, (hsize htext).symm, hspelled⟩
  · rintro ⟨taken, after, htext, rfl, hspelled⟩
    have hread := read_eq_ok_iff.mpr ⟨taken, htext, hspelled⟩
    rw [parse, Error.blame_eq_ok.mpr hread, ← hsize htext]
    rfl

/-- **The reader follows the grammar.** A segment is read from a text, and takes
up a number of bytes, exactly if the text in front of that place spells the
segment. The attribute tests of such a segment are well-formed. -/
theorem parse_follows_grammar (text : String) (segment : Segment) (n : Nat) :
    (parse text = .ok (segment, n) ↔
      ∃ taken after, text.toList = taken ++ after ∧
        (String.ofList taken).utf8ByteSize = n ∧ Spelled after segment taken) ∧
      (parse text = .ok (segment, n) → ∀ test ∈ segment.attributes, test.WellFormed) := by
  refine ⟨parse_eq_ok_iff, fun h => ?_⟩
  obtain ⟨taken, after, -, -, hspelled⟩ := parse_eq_ok_iff.mp h
  obtain ⟨_, _, _, _, _, _, _, -, -, -, -, -, hattributes, -⟩ := hspelled
  exact hattributes.wellFormed

/-- All parts at once, with brackets that a quotation hides. -/
theorem parse_follows_grammar_full :
    let text := " li#a.b[c~='x]']:not( d:has(e) ) > f"
    let segment : Segment :=
      ⟨some (.named "li"), some "a", ["b"], [⟨"c", .includes, some "x]"⟩],
        some ⟨"not", some "d:has(e)"⟩, .child⟩
    (∃ taken after, text.toList = taken ++ after ∧
      (String.ofList taken).utf8ByteSize = 35 ∧ Spelled after segment taken) ∧
      ∀ test ∈ segment.attributes, test.WellFormed := by
  intro text segment
  have hparse : parse text = .ok (segment, 35) := by decide +kernel
  exact ⟨(parse_follows_grammar text segment 35).1.mp hparse,
    (parse_follows_grammar text segment 35).2 hparse⟩

end Segment

end SelectorPath
