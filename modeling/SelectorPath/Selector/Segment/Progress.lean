/-
Reading a segment moves forward.

* `Segment.length_of_read`: the text after a segment is shorter than the text
  it was read from, so a chain of segments comes to an end.
* `Segment.length_argument_of_read`: so is the argument of a pseudo-class,
  which may hold a selector of its own.

Both are sums over the parts of a segment: each reader gives back what it did
not use, and uses at least one symbol for each thing it found.
-/
import SelectorPath.Selector.Segment.Reader

namespace SelectorPath.Segment

/-- A tag takes at least one symbol off the text. -/
theorem length_readTag (text : List Char) :
    (readTag text).2.length + (if (readTag text).1.isSome then 1 else 0) ≤ text.length := by
  rw [readTag.eq_def]
  split
  · simp
  · split
    · next h => exact Text.length_of_readName h
    · simp

/-- An identifier takes at least one symbol off the text. -/
theorem length_readId {text rest : List Char} {id : Option String}
    (h : readId text = .ok (id, rest)) :
    rest.length + (if id.isSome then 1 else 0) ≤ text.length := by
  rw [readId.eq_def] at h
  split at h
  · split at h
    · next hname =>
      have := Text.length_of_readName hname
      obtain ⟨rfl, rfl⟩ := by simpa using h
      simp only [Option.isSome_some, if_true, List.length_cons]
      omega
    · simp at h
  · obtain ⟨rfl, rfl⟩ := by simpa using h
    simp

/-- Every class takes at least one symbol off the text. -/
theorem length_readClasses {text rest : List Char} {classes : List String}
    (h : readClasses text = .ok (classes, rest)) :
    rest.length + classes.length ≤ text.length := by
  fun_induction readClasses text generalizing classes with
  | case1 text name after hname ih =>
    obtain ⟨⟨names, last⟩, hread, hret⟩ := Error.bind_eq_ok.mp h
    obtain ⟨rfl, rfl⟩ := by simpa [pure, Except.pure] using hret
    have := ih hread
    have := Text.length_of_readName hname
    simp only [List.length_cons]
    omega
  | case2 => simp at h
  | case3 =>
    obtain ⟨rfl, rfl⟩ := by simpa using h
    simp

/-- Every test takes at least one symbol off the text. -/
theorem length_readAttributes {text rest : List Char} {tests : List AttributeTest}
    (h : readAttributes text = .ok (tests, rest)) :
    rest.length + tests.length ≤ text.length := by
  fun_induction readAttributes text generalizing tests with
  | case1 text body after hbody ih =>
    obtain ⟨test, -, h⟩ := Error.bind_eq_ok.mp h
    obtain ⟨⟨more, last⟩, hread, hret⟩ := Error.bind_eq_ok.mp h
    obtain ⟨rfl, rfl⟩ := by simpa [pure, Except.pure] using hret
    have := ih hread
    have := Text.length_of_readGroup hbody
    simp only [List.length_cons]
    omega
  | case2 => simp at h
  | case3 =>
    obtain ⟨rfl, rfl⟩ := by simpa using h
    simp

/-- The length of the argument of a pseudo-class with its parentheses. -/
def argumentLength (pseudo : Option Pseudo) : Nat :=
  (pseudo.bind Pseudo.argument).elim 0 fun a => a.toList.length + 2

/-- A pseudo-class is at least a colon and a letter longer than its
argument. -/
theorem length_readPseudo {text rest : List Char} {pseudo : Option Pseudo}
    (h : readPseudo text = .ok (pseudo, rest)) :
    rest.length + argumentLength pseudo + (if pseudo.isSome then 2 else 0) ≤ text.length := by
  rw [readPseudo.eq_def] at h
  split at h
  · simp at h
  · split at h
    · next hname =>
      obtain ⟨⟨argument, after⟩, hargument, hret⟩ := Error.bind_eq_ok.mp h
      obtain ⟨rfl, rfl⟩ := by simpa [pure, Except.pure] using hret
      have := Text.length_of_readName hname
      have hlength := Argument.length_read hargument
      simp only [argumentLength, Option.bind_some, Option.isSome_some, if_true, List.length_cons]
      cases argument with
      | none =>
        simp only [Option.elim_none, Option.map_none] at hlength ⊢
        omega
      | some argument =>
        have := Text.length_trim_le argument
        simp only [Option.elim_some, Option.map_some, Function.comp, String.toList_ofList]
          at hlength ⊢
        omega
    · simp at h
  · obtain ⟨rfl, rfl⟩ := by simpa using h
    simp [argumentLength]

/-- A segment takes up at least one symbol, and its argument stands in what it takes up. -/
theorem length_readCompound {text rest : List Char} {segment : Segment}
    (h : readCompound text = .ok (segment, rest)) :
    rest.length < text.length ∧ rest.length + argumentLength segment.pseudo ≤ text.length := by
  rw [readCompound] at h
  obtain ⟨⟨id, afterId⟩, hid, h⟩ := Error.bind_eq_ok.mp h
  obtain ⟨⟨classes, afterClasses⟩, hclasses, h⟩ := Error.bind_eq_ok.mp h
  obtain ⟨⟨attributes, afterAttributes⟩, hattributes, h⟩ := Error.bind_eq_ok.mp h
  obtain ⟨⟨pseudo, afterPseudo⟩, hpseudo, h⟩ := Error.bind_eq_ok.mp h
  have htag := length_readTag text
  have hid := length_readId hid
  have hclasses := length_readClasses hclasses
  have hattributes := length_readAttributes hattributes
  have hpseudo := length_readPseudo hpseudo
  generalize readTag text = tag at h htag hid
  dsimp only at h hid hclasses hattributes hpseudo
  split at h
  · next hpart =>
    obtain ⟨rfl, rfl⟩ := by simpa using h
    refine ⟨?_, by dsimp only; omega⟩
    simp only [isConstrained, Bool.or_eq_true, Bool.not_eq_true', List.isEmpty_eq_false_iff]
      at hpart
    -- some part was there, and that one took up a symbol
    rcases hpart with htag' | ((hid' | hclasses') | hattributes') | hpseudo'
    · rw [if_pos htag'] at htag
      omega
    · rw [if_pos hid'] at hid
      omega
    · have := List.length_pos_iff.mpr hclasses'
      omega
    · have := List.length_pos_iff.mpr hattributes'
      omega
    · rw [if_pos hpseudo'] at hpseudo
      omega
  · split at h <;> simp at h

theorem length_readCombinator {text rest : List Char} {combinator : Combinator}
    (h : readCombinator text = .ok (combinator, rest)) : rest.length ≤ text.length := by
  have hblanks := Text.length_skipBlanks_le text
  rw [readCombinator] at h
  split at h
  · next after heq =>
    obtain ⟨rfl, rfl⟩ := by simpa using h
    have := Text.length_skipBlanks_le after
    rw [heq, List.length_cons] at hblanks
    omega
  · obtain ⟨rfl, rfl⟩ := by simpa using h
    simp
  · next heq =>
    split at h
    · obtain ⟨rfl, rfl⟩ := by simpa using h
      exact heq ▸ hblanks
    · simp at h

/-- A segment is read behind blanks, and then its combinator. -/
theorem read_eq_ok {text rest : List Char} {segment : Segment}
    (h : read text = .ok (segment, rest)) :
    ∃ compound after combinator,
      readCompound (Text.skipBlanks text) = .ok (compound, after) ∧
        readCombinator after = .ok (combinator, rest) ∧
          segment = { compound with combinator } := by
  rw [read] at h
  split at h
  · simp at h
  · obtain ⟨⟨compound, after⟩, hcompound, h⟩ := Error.bind_eq_ok.mp h
    obtain ⟨⟨combinator, last⟩, hcombinator, h⟩ := Error.bind_eq_ok.mp h
    obtain ⟨rfl, rfl⟩ := by simpa [pure, Except.pure] using h
    exact ⟨compound, after, combinator, hcompound, hcombinator, rfl⟩

/-- The text after a segment is shorter than the text it was read from. -/
theorem length_of_read {text rest : List Char} {segment : Segment}
    (h : read text = .ok (segment, rest)) : rest.length < text.length := by
  obtain ⟨compound, after, combinator, hcompound, hcombinator, rfl⟩ := read_eq_ok h
  have := (length_readCompound hcompound).1
  have := length_readCombinator hcombinator
  have := Text.length_skipBlanks_le text
  omega

/-- The argument of a pseudo-class is shorter than the text the segment was
read from. -/
theorem length_argument_of_read {text rest : List Char} {segment : Segment}
    (h : read text = .ok (segment, rest)) {argument : String}
    (ha : segment.pseudo.bind Pseudo.argument = some argument) :
    argument.toList.length < text.length := by
  obtain ⟨compound, after, combinator, hcompound, -, rfl⟩ := read_eq_ok h
  have hle := (length_readCompound hcompound).2
  have := Text.length_skipBlanks_le text
  simp only [argumentLength, show compound.pseudo.bind Pseudo.argument = some argument from ha,
    Option.elim_some] at hle
  omega

end SelectorPath.Segment
