/-
Progress of the compiler over the bytes of a text.

A segment takes up at least one byte, up to a boundary behind which there is no blank.
So the loop over the segments of a clause comes to the end of the text or to an error,
and it finds something to read as long as it goes on. The argument of a pseudo-class is
at least four bytes shorter than its segment, so selectors inside selectors get shorter.

* `Bytewise.TakesUp`: what a segment takes up of a text;
  `Bytewise.takesUp_of_parseAt`: every segment that is read does.
* `Bytewise.Unrolls`: the loop, turn by turn; `Bytewise.unrolls_place`: what it comes to
  from a place on, if there is no white space at the end of the text.
* `Bytewise.unionPaths_shorter`, `Bytewise.toPath_shorter`: only shorter texts are
  handed on.
* `Bytewise.compiling_makes_progress`: the main statement.
-/
import SelectorPath.Proofs.Bytes.Compile
import SelectorPath.Proofs.Selector.Blame
import SelectorPath.Proofs.Selector.Causes

namespace SelectorPath.Bytewise

open XPath Text

variable {text rest : List Char}

/-- A part has no more bytes than the whole. -/
lemma size_le_of_isInfix {part : List Char} (h : part <:+: text) : size part ≤ size text := by
  obtain ⟨before, after, rfl⟩ := h
  simp only [size_append]
  omega

lemma sure_inj {ε α : Type} {x y : Except ε α} (h : sure x = sure y) : x = y := Option.some.inj h

/-- A success is not changed by naming a source for failures. -/
lemma eq_of_blame_eq_ok {α : Type} {source : String} {x : ExceptT Cause Option α} {a : α}
    (h : blame source x = sure (.ok a)) : x = sure (.ok a) := by
  obtain ⟨outcome, hrun, hok⟩ := Option.map_eq_some_iff.mp h
  rw [Error.blame_eq_ok] at hok
  subst hok
  exact hrun

/-! ### One segment -/

/-- The segment takes up `n` bytes of the text, from the position `i` on. -/
structure TakesUp (text : List Char) (i : Nat) (segment : Segment) (n : Nat) : Prop where
  /-- It takes up some bytes. -/
  one_le : 1 ≤ n
  /-- It ends in the text. -/
  add_le : i + n ≤ size text
  /-- It ends between two characters. -/
  isValid : String.Pos.Raw.IsValid (String.ofList text) ⟨i + n⟩
  /-- There are no blanks behind it. -/
  unblanked : ∀ b ∈ (encode text)[i + n]?, Symbol.isBlank b = false
  /-- The argument of its pseudo-class leaves room for a colon, a name and parentheses. -/
  argument : ∀ a ∈ segment.pseudo.bind Pseudo.argument, a.utf8ByteSize + 4 ≤ n

/-- After a separator there are no further blanks. -/
lemma unblanked_of_separator {after separator : List Char}
    (h : Segment.SpelledSeparator after separator) :
    ∀ c ∈ after.head?, Symbol.isBlank c = false := by
  cases h with
  | child _ hright => exact hright.maximal
  | blanks _ hblanks _ => exact hblanks.maximal
  | ending hnil => simp [hnil]

/-- A pseudo-class has at least four bytes more than its argument, and what is trimmed
off. -/
lemma size_argument_of_spelled {after written : List Char} {pseudo : Option Pseudo}
    (h : Segment.SpelledPseudo after pseudo written) :
    ∀ a ∈ pseudo.bind Pseudo.argument, a.utf8ByteSize + 4 ≤ size written := by
  cases h with
  | none | bare _ => simp
  | @argument name raw hname _ =>
      rintro _ ⟨⟩
      have hpos := size_pos hname.ne_nil
      have htrim := size_le_of_isInfix (trim_isInfix raw)
      have hmarks : [':', '(', ')'].map Char.utf8Size = [1, 1, 1] := by decide
      simp only [List.map_cons, List.cons.injEq] at hmarks
      rw [utf8ByteSize_ofList]
      simp only [size_cons, size_append, size_nil, hmarks]
      omega

/-- A segment that was read begins behind the blanks and ends before the rest, which are
both places in the text. -/
lemma takesUp_of_read (h : rest <:+ text) {segment : Segment} {after : List Char}
    (hread : Segment.read rest = .ok (segment, after)) :
    TakesUp text (place text rest) segment (place text after - place text rest) := by
  have hlt := place_lt_of_read h hread
  have hend : place text rest + (place text after - place text rest) = place text after := by
    omega
  have hafter := (suffix_of_read hread).trans h
  -- the parts of the segment, of which the pseudo-class and the separator matter here
  obtain ⟨taken, rfl, blanks, tag, id, classes, attributes, written, separator, rfl, -, -, -, -,
    -, hwritten, hseparator, -⟩ := Segment.read_eq_ok_iff.mp hread
  refine ⟨Nat.sub_pos_of_lt hlt, hend.trans_le (place_le_size _ _), ?_, ?_, ?_⟩
  · obtain ⟨before, -, hcut⟩ := splitAt?_place hafter
    rw [hend, ← isSome_splitAt?_iff, hcut]
    rfl
  · rw [hend, getElem?_place hafter]
    cases after with
    | nil => simp
    | cons c after =>
        intro b hb
        rw [isBlank_of_mem_encode (mem_encode_of_head? hb)]
        exact unblanked_of_separator hseparator c rfl
  · intro a ha
    have hargument := size_argument_of_spelled hwritten a ha
    have hplace := place_of_append h
    simp only [size_append] at hplace
    omega

/-- At a boundary a segment is read as it is from the text that is left there. -/
lemma parseAt_of_splitAt? {i : Nat} {before : List Char}
    (h : splitAt? i text = some (before, rest)) :
    parseAt text i =
      sure ((Segment.read rest).map fun found => (found.1, size rest - size found.2)) := by
  obtain ⟨rfl, rfl⟩ := splitAt?_eq_some_iff.mp h
  have hsuffix : rest <:+ before ++ rest := List.suffix_append before rest
  rw [← place_append before rest, parseAt_place hsuffix]
  cases hread : Segment.read rest with
  | error cause => rfl
  | ok found =>
      have hafter := size_le_of_isInfix (suffix_of_read hread).isInfix
      have hrest := size_le_of_isInfix hsuffix.isInfix
      have htaken : place (before ++ rest) found.2 - place (before ++ rest) rest =
          size rest - size found.2 := by
        rw [place, place]
        omega
      rw [Except.map, Except.map, htaken]

/-- The same by byte positions: where a segment is read from a boundary of the text, it
takes up bytes there. -/
theorem takesUp_of_parseAt {i : Nat} (hvalid : String.Pos.Raw.IsValid (String.ofList text) ⟨i⟩)
    {segment : Segment} {n : Nat} (h : parseAt text i = sure (.ok (segment, n))) :
    TakesUp text i segment n := by
  obtain ⟨⟨before, rest⟩, hcut⟩ := Option.isSome_iff_exists.mp (isSome_splitAt?_iff.mpr hvalid)
  obtain ⟨rfl, rfl⟩ := splitAt?_eq_some_iff.mp hcut
  have hsuffix : rest <:+ before ++ rest := List.suffix_append before rest
  rw [← place_append before rest] at h ⊢
  rw [parseAt_place hsuffix] at h
  cases hread : Segment.read rest with
  | error cause =>
      rw [hread] at h
      cases sure_inj h
  | ok found =>
      rw [hread] at h
      obtain ⟨rfl, rfl⟩ := Prod.mk.inj (Except.ok.inj (sure_inj h))
      exact takesUp_of_read hsuffix hread

/-! ### The loop over the segments -/

/-- The loop over the segments of a text, turn by turn, from a position on: what it comes
to in the end. The next step is on the given axis. -/
inductive Unrolls (nested : Segment.Nested) (source : String) (body : List Char) :
    Axis → Nat → Except Error (List Step) → Prop
  /-- The end of the text. -/
  | finished {axis : Axis} : axis ≠ .child → Unrolls nested source body axis (size body) (.ok [])
  /-- The end of the text, where a child should follow. -/
  | dangling : Unrolls nested source body .child (size body)
      (.error (.malformed source .danglingChild))
  /-- There is something to read, and it is no segment. -/
  | unread {axis : Axis} {i : Nat} {cause : Cause} : i < size body →
      parseAt body i = sure (.error cause) → cause ≠ .emptySelector →
        Unrolls nested source body axis i (.error (.malformed source cause))
  /-- A segment that cannot be translated. -/
  | untranslated {axis : Axis} {i n : Nat} {segment : Segment} {e : Error} : i < size body →
      parseAt body i = sure (.ok (segment, n)) → TakesUp body i segment n →
        segment.toStep nested source axis = .error e →
          Unrolls nested source body axis i (.error e)
  /-- A segment and its step, and the rest of the loop behind the bytes it takes up. -/
  | next {axis : Axis} {i n : Nat} {segment : Segment} {step : Step}
      {result : Except Error (List Step)} : i < size body →
      parseAt body i = sure (.ok (segment, n)) → TakesUp body i segment n →
        segment.toStep nested source axis = .ok step →
          Unrolls nested source body segment.combinator.axis (i + n) result →
            Unrolls nested source body axis i (result.map (step :: ·))

/-- No part at the end of a text without white space there is made of blanks. -/
lemma skipBlanks_ne_nil {body : List Char} (hends : EndsTrimmed body) (h : rest <:+ body)
    (hne : rest ≠ []) : Text.skipBlanks rest ≠ [] := by
  intro hnil
  obtain ⟨before, rfl⟩ := h
  have hspaces : IsSpaces rest := fun c hc =>
    isSpace_of_isBlank (List.dropWhile_eq_nil_iff.mp hnil c hc)
  exact hne (eq_nil_of_endsTrimmed hspaces hends)

/-- What the loop comes to from a place on. -/
theorem unrolls_place {nested : Segment.Nested} {source : String} {body : List Char}
    (hends : EndsTrimmed body) (axis : Axis) (h : rest <:+ body) :
    Unrolls nested source body axis (place body rest) (Clause.steps nested source axis rest) := by
  fun_induction Clause.steps nested source axis rest with
  | case1 rest hempty =>
      rw [List.isEmpty_iff.mp hempty]
      exact .dangling
  | case2 axis rest hempty haxis =>
      rw [List.isEmpty_iff.mp hempty]
      exact .finished haxis
  | case3 axis rest hempty cause hread =>
      have hne : rest ≠ [] := by simpa using hempty
      -- more than blanks is left, so the cause is not that there is nothing
      have hordinary := Segment.ordinary_read (skipBlanks_ne_nil hends h hne) cause hread
      refine .unread (place_lt_size h hne) (by rw [parseAt_place h, hread]; rfl) ?_
      rintro rfl
      exact hordinary
  | case4 axis rest hempty segment after hread ih =>
      have hne : rest ≠ [] := by simpa using hempty
      have hlt := place_lt_size h hne
      have htakes := takesUp_of_read h hread
      have hparse : parseAt body (place body rest) =
          sure (.ok (segment, place body after - place body rest)) := by
        rw [parseAt_place h, hread]
        rfl
      cases hstep : segment.toStep nested source axis with
      | error e => exact .untranslated hlt hparse htakes hstep
      | ok step =>
          have hnext : place body rest + (place body after - place body rest) =
              place body after := Nat.add_sub_cancel' (place_lt_of_read h hread).le
          refine .next hlt hparse htakes hstep ?_
          rw [hnext]
          exact ih ((suffix_of_read hread).trans h)

/-- A chain whose axis has been taken off still ends where it ended, without white space. -/
lemma endsTrimmed_splitAxis (chain : List Char) : EndsTrimmed (Clause.splitAxis chain).2 := by
  have htrim := (isTrimmed_trim chain).2
  rw [Clause.splitAxis]
  split
  · next rest heq =>
      obtain ⟨before, hbefore, -⟩ := exists_trimStart rest
      by_cases hnil : trimStart rest = []
      · simp [hnil, EndsTrimmed]
      · rw [heq, hbefore, ← List.cons_append] at htrim
        exact (endsTrimmed_append hnil).mp htrim
  · exact htrim

/-! ### Selectors inside selectors -/

section

variable {f g : Segment.Nested}

/-- A chain hands on only texts in parentheses behind a colon and a name, which are at
least four bytes shorter. -/
lemma steps_shorter {source : String} (axis : Axis) {chain : List Char}
    (h : ∀ a, size a + 4 ≤ size chain → f a = g a) :
    Clause.steps f source axis chain = Clause.steps g source axis chain := by
  fun_induction Clause.steps f source axis chain with
  | case1 chain hempty =>
      rw [List.isEmpty_iff.mp hempty, Clause.steps_nil]
      rfl
  | case2 axis chain hempty haxis =>
      rw [List.isEmpty_iff.mp hempty, Clause.steps_nil, if_neg haxis]
  | case3 axis chain hempty cause hread =>
      rw [Clause.steps_of_read_eq_error (by simpa using hempty) hread]
  | case4 axis chain hempty segment rest hread ih =>
      have hle := size_le_of_isInfix (suffix_of_read hread).isInfix
      have htakes := takesUp_of_read (List.suffix_refl chain) hread
      have hargument : ∀ a, segment.pseudo.bind Pseudo.argument = some a →
          f a.toList = g a.toList := by
        intro a ha
        have hshort := htakes.argument a ha
        have hadd := htakes.add_le
        rw [← String.ofList_toList (s := a), utf8ByteSize_ofList] at hshort
        exact h a.toList (by omega)
      rw [Clause.steps_of_read_eq_ok (by simpa using hempty) hread,
        Clause.toStep_congr hargument, ih fun a ha => h a (by omega)]

/-- The path of a clause depends on the paths of texts that are shorter by the bytes
around an argument. -/
theorem toPath_shorter {clause : List Char} (h : ∀ a, size a + 4 ≤ size clause → f a = g a) :
    Clause.toPath f clause = Clause.toPath g clause := by
  rw [Clause.toPath, Clause.toPath]
  split_ifs
  · rfl
  · rw [Clause.pathOfTrimmed, Clause.pathOfTrimmed]
    cases hsplit : Clause.splitProperty (trim clause) with
    | error cause => rfl
    | ok found =>
        obtain ⟨chain, property⟩ := found
        have hinfix : (Clause.splitAxis chain).2 <:+: clause :=
          ((Clause.splitAxis_isInfix chain).trans (Clause.splitProperty_isInfix hsplit)).trans
            (trim_isInfix clause)
        have hle := size_le_of_isInfix hinfix
        have hsteps : ∀ source axis, Clause.steps f source axis (Clause.splitAxis chain).2 =
            Clause.steps g source axis (Clause.splitAxis chain).2 :=
          fun source axis => steps_shorter axis fun a ha => h a (by omega)
        simp only [Error.blame, bind, Except.bind, hsteps]

/-- A selector hands on only texts that are at least four bytes shorter than itself. -/
theorem unionPaths_shorter {selector : List Char}
    (h : ∀ a, size a + 4 ≤ size selector → f a = g a) :
    Clause.unionPaths f selector = Clause.unionPaths g selector := by
  rw [Clause.unionPaths, Clause.unionPaths]
  cases hsplit : Clause.splitUnion selector with
  | error e => rfl
  | ok clauses =>
      refine Error.mapM_congr fun clause hclause => toPath_shorter fun a ha => h a ?_
      have hle := size_le_of_isInfix (Clause.isInfix_of_mem_splitUnion hsplit clause hclause)
      omega

end

/-! ### The main statement -/

/-- A segment takes up bytes of its own, wherever it is read. So the loop over the segments
of a clause comes to the end of the text or to an error, and never to a place where there
is nothing left to read. Selectors inside a selector are shorter, and no selector is
rejected for a segment that has no part. -/
theorem compiling_makes_progress :
    (∀ (text : List Char) (i : Nat) (source : String),
      String.Pos.Raw.IsValid (String.ofList text) ⟨i⟩ → i < size text →
        (∃ before rest, text = before ++ rest ∧ size before = i ∧
          blame source (parseAt text i) = blame source (parseAt rest 0) ∧
          blame source (parseAt rest 0) = sure ((Error.blame source (Segment.read rest)).map
            fun found => (found.1, size rest - size found.2))) ∧
        ∀ segment n, blame source (parseAt text i) = sure (.ok (segment, n)) →
          TakesUp text i segment n) ∧
      (∀ (nested : Segment.Nested) (source : String) (axis : Axis) (chain : List Char),
        let body := (Clause.splitAxis chain).2
        steps (fun a => sure (nested a)) source axis body 0 =
            sure (Clause.steps nested source axis body) ∧
          Unrolls nested source body axis 0 (Clause.steps nested source axis body)) ∧
      (∀ (f g : Segment.Nested) (text : List Char), (∀ a, size a + 4 ≤ size text → f a = g a) →
        Clause.toPath f text = Clause.toPath g text ∧
          Clause.unionPaths f text = Clause.unionPaths g text) ∧
      (∀ (folding : Folding) (s source : String), ∀ cause ∈ [Cause.bareSegment, Cause.bareStep],
        Selector.compile folding s ≠ .error (.malformed source cause) ∧
          Selector.compileClause folding s ≠ .error (.malformed source cause)) := by
  refine ⟨fun text i source hvalid hlt => ⟨?_, fun segment n h => ?_⟩, ?_, ?_, ?_⟩
  · obtain ⟨⟨before, rest⟩, hcut⟩ := Option.isSome_iff_exists.mp (isSome_splitAt?_iff.mpr hvalid)
    obtain ⟨htext, hsize⟩ := splitAt?_eq_some_iff.mp hcut
    have hfront : parseAt rest 0 = _ := parseAt_of_splitAt? (splitAt?_append [] rest)
    refine ⟨before, rest, htext, hsize, by rw [parseAt_of_splitAt? hcut, hfront], ?_⟩
    rw [hfront, blame_sure]
    cases Segment.read rest <;> rfl
  · exact takesUp_of_parseAt hvalid (eq_of_blame_eq_ok h)
  · intro nested source axis chain
    refine ⟨steps_eq fun _ _ => rfl, ?_⟩
    rw [← place_self (Clause.splitAxis chain).2]
    exact unrolls_place (endsTrimmed_splitAxis chain) axis (List.suffix_refl _)
  · exact fun f g text h => ⟨toPath_shorter h, unionPaths_shorter h⟩
  · intro folding s source cause hcause
    have hcompile := ((Selector.notBare_paths s.toList).map
      (·.map (Path.render folding .document))).map Compiled.mk
    have hclause := (Clause.notBare_toPath Selector.notBare_paths s.toList).map
      (Path.render folding .document)
    have hbare : ¬ (Error.malformed source cause).NotBare := by
      simp only [List.mem_cons, List.not_mem_nil, or_false] at hcause
      rcases hcause with rfl | rfl <;> exact id
    exact ⟨fun h => hbare (hcompile _ h), fun h => hbare (hclause _ h)⟩

/-- A text that begins with a character of two bytes, and its second segment with a
selector inside. -/
theorem compiling_makes_progress_second :
    blame "" (parseAt "é > b:not( c )".toList 5) =
        sure (.ok (⟨some (.named "b"), none, [], [], some ⟨"not", some "c"⟩, .descendant⟩, 10)) ∧
      TakesUp "é > b:not( c )".toList 5
        ⟨some (.named "b"), none, [], [], some ⟨"not", some "c"⟩, .descendant⟩ 10 ∧
      Clause.unionPaths (fun a => if size a ≤ 11 then Selector.paths a else .ok [])
          "é > b:not( c )".toList =
        Clause.unionPaths Selector.paths "é > b:not( c )".toList ∧
      Selector.compile .ascii "é > :" ≠ .error (.malformed "é > :" .bareSegment) := by
  have hcut : splitAt? 5 "é > b:not( c )".toList =
      some ("é > ".toList, "b:not( c )".toList) := by decide +kernel
  have hread : Segment.read "b:not( c )".toList =
      .ok (⟨some (.named "b"), none, [], [], some ⟨"not", some "c"⟩, .descendant⟩, []) := by
    decide +kernel
  have hparse : blame "" (parseAt "é > b:not( c )".toList 5) =
      sure (.ok (⟨some (.named "b"), none, [], [], some ⟨"not", some "c"⟩, .descendant⟩, 10)) := by
    rw [parseAt_of_splitAt? hcut, hread]
    rfl
  have hvalid := isSome_splitAt?_iff.mp (Option.isSome_iff_exists.mpr ⟨_, hcut⟩)
  obtain ⟨hsegment, -, hshorter, hcause⟩ := compiling_makes_progress
  refine ⟨hparse, (hsegment _ 5 "" hvalid (by decide)).2 _ _ hparse, ?_,
    (hcause .ascii "é > :" _ _ (by simp)).1⟩
  have hsize : size "é > b:not( c )".toList = 15 := by decide
  refine (hshorter _ _ _ fun a ha => if_pos ?_).2
  omega

end SelectorPath.Bytewise
