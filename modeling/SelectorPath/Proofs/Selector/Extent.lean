/-
How far the parts of a segment reach.

A reader takes some symbols from the front of a text and leaves the rest. It
looks at the first symbol of the rest to know that its part is over, and at
nothing beyond. So the same symbols are taken in front of any other text that
begins alike, or that begins with something no part of a segment begins with.

* `Segment.Stops`: texts in front of which every segment is over.
* `Segment.Follows`: what can stand in the place of a rest.
* `Segment.Takes`: a reader takes the same symbols in front of all of these.
* `Segment.takes_readCompound`: all readers of a segment do so, one after the
  other.
* `Segment.not_stops_of_readCompound`: a segment does not begin with a
  separator.
-/
import Mathlib.Data.List.TakeWhile
import SelectorPath.Proofs.Selector.Parsed

namespace SelectorPath

/-- A group ends at the same bracket, whatever comes after it. -/
theorem Text.readGroup_append {g : Grouping} {s : Nesting} {text body rest : List Char}
    (h : readGroup g s text = some (body, rest)) :
    ∃ c, text = body ++ c :: rest ∧
      ∀ rest', readGroup g s (body ++ c :: rest') = some (body, rest') := by
  induction text generalizing s body with
  | nil => simp [readGroup] at h
  | cons a text ih =>
      rw [readGroup] at h
      split_ifs at h with hclosed
      · obtain ⟨rfl, rfl⟩ := by simpa using h
        refine ⟨a, rfl, fun rest' => ?_⟩
        rw [List.nil_append, readGroup, if_pos hclosed]
      · obtain ⟨⟨body', rest'⟩, hread, heq⟩ := Option.map_eq_some_iff.mp h
        obtain ⟨rfl, rfl⟩ := by simpa using heq
        obtain ⟨c, rfl, hsame⟩ := ih hread
        refine ⟨c, rfl, fun rest' => ?_⟩
        rw [List.cons_append, readGroup, if_neg hclosed, hsame]
        rfl

namespace Segment

open Text

/-- No part of a segment begins with the first symbol of the text: there is
none, or it belongs to a separator. -/
def Stops (text : List Char) : Prop := ∀ c ∈ text.head?, Symbol.isBlank c = true ∨ c = '>'

/-- A text can stand in the place of a rest: it begins alike, or it ends every
segment. -/
def Follows (rest rest' : List Char) : Prop := rest'.head? = rest.head? ∨ Stops rest'

/-- A part in front of the rest is the same part in front of what follows. -/
lemma Follows.append {rest rest' : List Char} (h : Follows rest rest') (taken : List Char) :
    Follows (taken ++ rest) (taken ++ rest') := by
  cases taken with
  | nil => exact h
  | cons c taken => exact .inl rfl

/-- A symbol that belongs to no separator is not met in what follows, unless it
was there before. -/
lemma Follows.head_ne {rest rest' : List Char} (h : Follows rest rest') {p : Char → Bool}
    (hp : ∀ c, p c = true → Symbol.isBlank c = false ∧ c ≠ '>')
    (hrest : ∀ c ∈ rest.head?, p c = false) : ∀ c ∈ rest'.head?, p c = false := by
  intro c hc
  rcases h with hsame | hstops
  · exact hrest c (hsame ▸ hc)
  · by_contra hpc
    obtain ⟨hblank, hchild⟩ := hp c (by simpa using hpc)
    rcases hstops c hc with h | h
    · simp [hblank] at h
    · exact hchild h

/-- The reader takes a part from the front of the text and leaves the rest, and
takes the same part in front of all that can follow. -/
def Takes {β : Type} (read : List Char → Except Cause (β × List Char)) (text : List Char)
    (b : β) (rest : List Char) : Prop :=
  ∃ taken, text = taken ++ rest ∧
    ∀ rest', Follows rest rest' → read (taken ++ rest') = .ok (b, rest')

/-! ### Names -/

/-- A name is a run of name symbols that cannot be longer. -/
lemma readName_eq_some_iff {text name rest : List Char} :
    readName text = some (name, rest) ↔
      name ≠ [] ∧ text = name ++ rest ∧ (∀ c ∈ name, Symbol.isName c = true) ∧
        ∀ c ∈ rest.head?, Symbol.isName c = false := by
  constructor
  · intro h
    obtain ⟨rfl, rfl, hne⟩ := readName_eq_some h
    refine ⟨hne, List.takeWhile_append_dropWhile.symm, fun c hc => List.mem_takeWhile_imp hc, ?_⟩
    intro c hc
    have hhead := List.head?_dropWhile_not Symbol.isName text
    rw [Option.mem_def] at hc
    simpa [hc] using hhead
  · rintro ⟨hne, rfl, hname, hrest⟩
    have hstop : rest.takeWhile Symbol.isName = [] ∧ rest.dropWhile Symbol.isName = rest := by
      cases rest with
      | nil => exact ⟨rfl, rfl⟩
      | cons c rest => simp [hrest c rfl]
    have htake : (name ++ rest).takeWhile Symbol.isName = name := by
      rw [List.takeWhile_append_of_pos hname, hstop.1, List.append_nil]
    have hdrop : (name ++ rest).dropWhile Symbol.isName = rest := by
      rw [List.dropWhile_append_of_pos hname, hstop.2]
    obtain ⟨c, name, rfl⟩ := List.exists_cons_of_ne_nil hne
    rw [readName, htake, hdrop]

/-- There is no name where no symbol of a name stands first. -/
lemma readName_eq_none_iff {text : List Char} :
    readName text = none ↔ ∀ c ∈ text.head?, Symbol.isName c = false := by
  cases text with
  | nil => simp [readName]
  | cons c text => by_cases hc : Symbol.isName c = true <;> simp [readName, hc]

/-- Names cannot be taken for separators. -/
lemma isName_not_separator (c : Char) (h : Symbol.isName c = true) :
    Symbol.isBlank c = false ∧ c ≠ '>' := by
  constructor
  · rw [← Bool.not_eq_true]
    intro hblank
    simp only [Symbol.isName, Symbol.isBlank, Symbol.code, Bool.or_eq_true, Bool.and_eq_true,
      decide_eq_true_eq, beq_iff_eq] at h hblank
    omega
  · rintro rfl
    exact absurd h (by decide)

/-- A name ends at the same place in front of all that can follow it. -/
lemma readName_follows {text name rest rest' : List Char}
    (h : readName text = some (name, rest)) (hrest : Follows rest rest') :
    readName (name ++ rest') = some (name, rest') := by
  obtain ⟨hne, -, hname, hstop⟩ := readName_eq_some_iff.mp h
  exact readName_eq_some_iff.mpr
    ⟨hne, rfl, hname, hrest.head_ne isName_not_separator hstop⟩

/-- Where no name begins, none begins in what can stand in its place. -/
lemma readName_follows_none {rest rest' : List Char} (h : readName rest = none)
    (hrest : Follows rest rest') : readName rest' = none :=
  readName_eq_none_iff.mpr (hrest.head_ne isName_not_separator (readName_eq_none_iff.mp h))

/-! ### The parts of a segment -/

/-- A mark that begins a part is not met in what follows, unless it was there
before. -/
lemma Follows.mark_ne {rest rest' : List Char} (h : Follows rest rest') {mark : Char}
    (hmark : Symbol.isBlank mark = false ∧ mark ≠ '>') (hrest : mark ∉ rest.head?) :
    mark ∉ rest'.head? := by
  have hne := h.head_ne (p := (· == mark)) (fun c hc => by rwa [eq_of_beq hc])
    fun c hc => beq_eq_false_iff_ne.mpr fun heq => hrest (heq ▸ hc)
  intro hmem
  simpa using hne mark hmem

lemma not_mem_head {mark : Char} {text : List Char} (h : ∀ rest, text ≠ mark :: rest) :
    mark ∉ text.head? := by
  intro hmem
  obtain ⟨rest, rfl⟩ := List.head?_eq_some_iff.mp hmem
  exact h rest rfl

lemma readTag_of_name {text name rest : List Char} (h : readName text = some (name, rest)) :
    readTag text = (some (.named (String.ofList name)), rest) := by
  rw [readTag.eq_def]
  split
  · rw [readName_eq_none_iff.mpr (by simp [show Symbol.isName '*' = false by decide])] at h
    simp at h
  · rw [h]

/-- Without a name or a star there is no tag, and nothing is taken up. -/
lemma readTag_of_none {text : List Char} (hmark : '*' ∉ text.head?) (h : readName text = none) :
    readTag text = (none, text) := by
  rw [readTag.eq_def]
  split
  · simp at hmark
  · rw [h]

/-- Reading a tag does not look beyond the symbol that ends it. -/
theorem takes_readTag (text : List Char) :
    Takes (fun text => .ok (readTag text)) text (readTag text).1 (readTag text).2 := by
  by_cases hmark : '*' ∈ text.head?
  · obtain ⟨rest, rfl⟩ := List.head?_eq_some_iff.mp hmark
    exact ⟨['*'], rfl, fun rest' _ => rfl⟩
  · cases hname : readName text with
    | none =>
        rw [readTag_of_none hmark hname]
        refine ⟨[], rfl, fun rest' hrest => ?_⟩
        exact congrArg Except.ok (readTag_of_none (hrest.mark_ne (by decide) hmark)
          (readName_follows_none hname hrest))
    | some r =>
        obtain ⟨name, rest⟩ := r
        rw [readTag_of_name hname]
        refine ⟨name, (readName_eq_some_iff.mp hname).2.1, fun rest' hrest => ?_⟩
        exact congrArg Except.ok (readTag_of_name (readName_follows hname hrest))

lemma readId_of_name {text name rest : List Char} (h : readName text = some (name, rest)) :
    readId ('#' :: text) = .ok (some (String.ofList name), rest) := by
  rw [readId, h]

lemma readId_of_ne {text : List Char} (h : '#' ∉ text.head?) : readId text = .ok (none, text) := by
  rw [readId.eq_def]
  split
  · simp at h
  · rfl

/-- Reading an identifier does not look beyond the symbol that ends it. -/
theorem takes_readId {text rest : List Char} {id : Option String}
    (h : readId text = .ok (id, rest)) : Takes readId text id rest := by
  by_cases hmark : '#' ∈ text.head?
  · obtain ⟨text, rfl⟩ := List.head?_eq_some_iff.mp hmark
    cases hname : readName text with
    | none =>
        rw [readId, hname] at h
        simp at h
    | some r =>
        obtain ⟨name, after⟩ := r
        obtain ⟨rfl, rfl⟩ := by simpa [readId_of_name hname] using h
        refine ⟨'#' :: name, ?_, fun rest' hrest => ?_⟩
        · rw [(readName_eq_some_iff.mp hname).2.1, List.cons_append]
        · rw [List.cons_append, readId_of_name (readName_follows hname hrest)]
  · obtain ⟨rfl, rfl⟩ := by simpa [readId_of_ne hmark] using h
    exact ⟨[], rfl, fun rest' hrest => readId_of_ne (hrest.mark_ne (by decide) hmark)⟩

lemma readClasses_of_name {text name rest : List Char} (h : readName text = some (name, rest)) :
    readClasses ('.' :: text) = (do
      let (names, rest) ← readClasses rest
      return (String.ofList name :: names, rest)) := by
  rw [readClasses]
  split
  · next h' =>
      obtain ⟨rfl, rfl⟩ : _ ∧ _ := by simpa [h] using h'
      rfl
  · simp_all

lemma readClasses_of_ne {text : List Char} (h : '.' ∉ text.head?) :
    readClasses text = .ok ([], text) := by
  rw [readClasses.eq_def]
  split
  · simp at h
  · rfl

/-- Nor does reading classes, by induction along the reader. -/
theorem takes_readClasses {text rest : List Char} {classes : List String}
    (h : readClasses text = .ok (classes, rest)) : Takes readClasses text classes rest := by
  fun_induction readClasses text generalizing classes with
  | case1 text name after hname ih =>
      obtain ⟨⟨names, last⟩, hread, hret⟩ := Error.bind_eq_ok.mp h
      obtain ⟨rfl, rfl⟩ := Prod.mk.inj (Error.pure_eq_ok.mp hret)
      obtain ⟨taken, rfl, hsame⟩ := ih hread
      refine ⟨'.' :: (name ++ taken), ?_, fun rest' hrest => ?_⟩
      · rw [(readName_eq_some_iff.mp hname).2.1, List.cons_append, List.append_assoc]
      · rw [List.cons_append, List.append_assoc,
          readClasses_of_name (readName_follows hname (hrest.append taken)), hsame rest' hrest]
        rfl
  | case2 => simp at h
  | case3 text hne =>
      obtain ⟨rfl, rfl⟩ := by simpa using h
      have hmark : '.' ∉ text.head? := not_mem_head fun rest heq => hne rest heq
      exact ⟨[], rfl, fun rest' hrest => readClasses_of_ne (hrest.mark_ne (by decide) hmark)⟩

lemma readAttributes_of_body {text body rest : List Char}
    (h : readBracketed text = some (body, rest)) :
    readAttributes ('[' :: text) = (do
      let test ← AttributeTest.ofBody body
      let (tests, rest) ← readAttributes rest
      return (test :: tests, rest)) := by
  rw [readAttributes]
  split
  · next h' =>
      obtain ⟨rfl, rfl⟩ : _ ∧ _ := by simpa [h] using h'
      rfl
  · simp_all

lemma readAttributes_of_ne {text : List Char} (h : '[' ∉ text.head?) :
    readAttributes text = .ok ([], text) := by
  rw [readAttributes.eq_def]
  split
  · simp at h
  · rfl

/-- Nor does reading tests; a bracket ends each of them. -/
theorem takes_readAttributes {text rest : List Char} {tests : List AttributeTest}
    (h : readAttributes text = .ok (tests, rest)) : Takes readAttributes text tests rest := by
  fun_induction readAttributes text generalizing tests with
  | case1 text body after hbody ih =>
      obtain ⟨test, htest, h⟩ := Error.bind_eq_ok.mp h
      obtain ⟨⟨more, last⟩, hread, hret⟩ := Error.bind_eq_ok.mp h
      obtain ⟨rfl, rfl⟩ := Prod.mk.inj (Error.pure_eq_ok.mp hret)
      obtain ⟨taken, rfl, hsame⟩ := ih hread
      obtain ⟨bracket, rfl, hbody'⟩ := readGroup_append hbody
      refine ⟨'[' :: (body ++ bracket :: taken), by simp, fun rest' hrest => ?_⟩
      rw [List.cons_append, List.append_assoc, List.cons_append,
        readAttributes_of_body (hbody' (taken ++ rest')), htest]
      show (readAttributes (taken ++ rest') >>= _) = _
      rw [hsame rest' hrest]
      rfl
  | case2 => simp at h
  | case3 text hne =>
      obtain ⟨rfl, rfl⟩ := by simpa using h
      have hmark : '[' ∉ text.head? := not_mem_head fun rest heq => hne rest heq
      exact ⟨[], rfl, fun rest' hrest => readAttributes_of_ne (hrest.mark_ne (by decide) hmark)⟩

lemma argument_of_ne {text : List Char} (h : '(' ∉ text.head?) :
    Argument.read text = .ok (none, text) := by
  rw [Argument.read.eq_def]
  split
  · simp at h
  · rfl

/-- An argument ends with its parenthesis, if there is one. -/
lemma takes_argument {text rest : List Char} {argument : Option (List Char)}
    (h : Argument.read text = .ok (argument, rest)) : Takes Argument.read text argument rest := by
  rw [Argument.read.eq_def] at h
  split at h
  · split at h
    · next body after hbody =>
        obtain ⟨rfl, rfl⟩ := by simpa using h
        obtain ⟨bracket, rfl, hbody'⟩ := readGroup_append hbody
        refine ⟨'(' :: (body ++ [bracket]), by simp, fun rest' _ => ?_⟩
        rw [List.cons_append, List.append_assoc, List.singleton_append, Argument.read,
          readParenthesized, hbody' rest']
    · simp at h
  · next hne =>
      obtain ⟨rfl, rfl⟩ := by simpa using h
      refine ⟨[], rfl, fun rest' hrest => argument_of_ne (hrest.mark_ne (by decide) ?_)⟩
      exact not_mem_head fun rest heq => hne rest heq

lemma readPseudo_of_name {text name rest : List Char} (h : readName text = some (name, rest)) :
    readPseudo (':' :: text) = (do
      let (argument, rest) ← Argument.read rest
      return (some ⟨String.ofList name, argument.map (String.ofList ∘ trim)⟩, rest)) := by
  rw [readPseudo.eq_def]
  split
  · next heq =>
      obtain rfl := (List.cons.inj heq).2
      rw [readName_eq_none_iff.mpr (by simp [show Symbol.isName ':' = false by decide])] at h
      simp at h
  · next heq =>
      obtain rfl := (List.cons.inj heq).2
      rw [h]
  · next hne => exact absurd rfl (hne text)

lemma readPseudo_of_ne {text : List Char} (h : ':' ∉ text.head?) :
    readPseudo text = .ok (none, text) := by
  rw [readPseudo.eq_def]
  split
  · simp at h
  · simp at h
  · rfl

lemma readPseudo_of_none {text : List Char} (hsecond : ':' ∉ text.head?)
    (h : readName text = none) : readPseudo (':' :: text) = .error .missingPseudo := by
  rw [readPseudo.eq_def]
  split
  · next heq =>
      obtain rfl := (List.cons.inj heq).2
      simp at hsecond
  · next heq =>
      obtain rfl := (List.cons.inj heq).2
      rw [h]
  · next hne => exact absurd rfl (hne text)

/-- Reading a pseudo-class looks at one symbol beyond its name, for the parenthesis of an
argument. -/
theorem takes_readPseudo {text rest : List Char} {pseudo : Option Pseudo}
    (h : readPseudo text = .ok (pseudo, rest)) : Takes readPseudo text pseudo rest := by
  by_cases hmark : ':' ∈ text.head?
  · obtain ⟨text, rfl⟩ := List.head?_eq_some_iff.mp hmark
    cases hname : readName text with
    | none =>
        rw [readPseudo.eq_def] at h
        split at h
        · simp at h
        · next heq =>
            obtain rfl := (List.cons.inj heq).2
            simp [hname] at h
        · next hne => exact absurd rfl (hne text)
    | some r =>
        obtain ⟨name, after⟩ := r
        rw [readPseudo_of_name hname] at h
        obtain ⟨⟨argument, last⟩, hargument, hret⟩ := Error.bind_eq_ok.mp h
        obtain ⟨rfl, rfl⟩ := Prod.mk.inj (Error.pure_eq_ok.mp hret)
        obtain ⟨taken, rfl, hsame⟩ := takes_argument hargument
        refine ⟨':' :: (name ++ taken), ?_, fun rest' hrest => ?_⟩
        · rw [(readName_eq_some_iff.mp hname).2.1, List.cons_append, List.append_assoc]
        · -- neither the name nor the argument goes on into what follows
          rw [List.cons_append, List.append_assoc,
            readPseudo_of_name (readName_follows hname (hrest.append taken)), hsame rest' hrest]
          rfl
  · obtain ⟨rfl, rfl⟩ := by simpa [readPseudo_of_ne hmark] using h
    exact ⟨[], rfl, fun rest' hrest => readPseudo_of_ne (hrest.mark_ne (by decide) hmark)⟩

/-! ### Whole segments -/

/-- A segment is its parts one after the other, and there is at least one. -/
lemma readCompound_eq_ok {text rest : List Char} {segment : Segment} :
    readCompound text = .ok (segment, rest) ↔
      ∃ afterTag afterId afterClasses afterAttributes,
        readTag text = (segment.tag, afterTag) ∧
          readId afterTag = .ok (segment.id, afterId) ∧
            readClasses afterId = .ok (segment.classes, afterClasses) ∧
              readAttributes afterClasses = .ok (segment.attributes, afterAttributes) ∧
                readPseudo afterAttributes = .ok (segment.pseudo, rest) ∧
                  segment.combinator = .descendant ∧
                    (segment.tag.isSome || segment.isConstrained) = true := by
  constructor
  · intro h
    rw [readCompound] at h
    obtain ⟨⟨id, afterId⟩, hid, h⟩ := Error.bind_eq_ok.mp h
    obtain ⟨⟨classes, afterClasses⟩, hclasses, h⟩ := Error.bind_eq_ok.mp h
    obtain ⟨⟨attributes, afterAttributes⟩, hattributes, h⟩ := Error.bind_eq_ok.mp h
    obtain ⟨⟨pseudo, afterPseudo⟩, hpseudo, h⟩ := Error.bind_eq_ok.mp h
    dsimp only at h
    split_ifs at h with hpart
    · obtain ⟨rfl, rfl⟩ := by simpa using h
      exact ⟨_, _, _, _, rfl, hid, hclasses, hattributes, hpseudo, rfl, hpart⟩
    · split at h <;> simp at h
  · rintro ⟨afterTag, afterId, afterClasses, afterAttributes, htag, hid, hclasses, hattributes,
      hpseudo, hcombinator, hpart⟩
    obtain ⟨tag, id, classes, attributes, pseudo, combinator⟩ := segment
    obtain rfl : combinator = .descendant := hcombinator
    rw [readCompound, htag]
    refine Error.bind_eq_ok.mpr ⟨_, hid, Error.bind_eq_ok.mpr ⟨_, hclasses, ?_⟩⟩
    refine Error.bind_eq_ok.mpr ⟨_, hattributes, Error.bind_eq_ok.mpr ⟨_, hpseudo, ?_⟩⟩
    exact if_pos hpart

/-- The parts of a segment are the same in front of all that can follow it. -/
theorem takes_readCompound {text rest : List Char} {segment : Segment}
    (h : readCompound text = .ok (segment, rest)) : Takes readCompound text segment rest := by
  obtain ⟨afterTag, afterId, afterClasses, afterAttributes, htag, hid, hclasses, hattributes,
    hpseudo, hpart⟩ := readCompound_eq_ok.mp h
  obtain ⟨tagText, htext, htag'⟩ := takes_readTag text
  obtain ⟨idText, rfl, hid'⟩ := takes_readId hid
  obtain ⟨classesText, rfl, hclasses'⟩ := takes_readClasses hclasses
  obtain ⟨attributesText, rfl, hattributes'⟩ := takes_readAttributes hattributes
  obtain ⟨pseudoText, rfl, hpseudo'⟩ := takes_readPseudo hpseudo
  rw [htag] at htext htag'
  refine ⟨tagText ++ (idText ++ (classesText ++ (attributesText ++ pseudoText))), ?_, ?_⟩
  · rw [htext]
    simp only [List.append_assoc]
  · intro rest' hrest
    -- each part is followed by the next one, and the last part by what follows
    have h₄ := hrest.append pseudoText
    have h₃ := h₄.append attributesText
    have h₂ := h₃.append classesText
    have h₁ := h₂.append idText
    simp only [List.append_assoc]
    exact readCompound_eq_ok.mpr ⟨_, _, _, _, Except.ok.inj (htag' _ h₁), hid' _ h₂,
      hclasses' _ h₃, hattributes' _ h₄, hpseudo' _ hrest, hpart⟩

/-- A segment does not begin with a separator, and it is not empty. -/
lemma not_stops_of_readCompound {text rest : List Char} {segment : Segment}
    (h : readCompound text = .ok (segment, rest)) : ¬ Stops text := by
  intro hstops
  obtain ⟨afterTag, afterId, afterClasses, afterAttributes, htag, hid, hclasses, hattributes,
    hpseudo, -, hpart⟩ := readCompound_eq_ok.mp h
  -- in front of a separator there is no part to be read
  have hfollows : Follows [] text := .inr hstops
  have hmark : ∀ {mark : Char}, Symbol.isBlank mark = false ∧ mark ≠ '>' → mark ∉ text.head? :=
    fun hmark => hfollows.mark_ne hmark (by simp)
  obtain ⟨hnoTag, rfl⟩ := by
    simpa [readTag_of_none (hmark (by decide)) (readName_follows_none rfl hfollows)] using htag
  obtain ⟨hnoId, rfl⟩ := by simpa [readId_of_ne (hmark (by decide))] using hid
  obtain ⟨hnoClasses, rfl⟩ := by simpa [readClasses_of_ne (hmark (by decide))] using hclasses
  obtain ⟨hnoAttributes, rfl⟩ := by
    simpa [readAttributes_of_ne (hmark (by decide))] using hattributes
  obtain ⟨hnoPseudo, -⟩ := by simpa [readPseudo_of_ne (hmark (by decide))] using hpseudo
  simp [isConstrained, ← hnoTag, ← hnoId, hnoClasses, hnoAttributes, ← hnoPseudo] at hpart

end Segment

end SelectorPath
