/-
Chains that differ in the blanks between their segments.

* `Combinator.Separates`: the texts that stand for a combinator between two
  segments.
* `Clause.Respaced`: two chains with the same segments and combinators, written
  with any separators.
* `Clause.Respaced.steps_eq_ok`: such chains have the same steps.
* `Clause.Respaced.after`, `Clause.Respaced.lastExposed_eq_none`: no separator is
  seen by the pass that looks for a property.
* `Clause.respaced_of_steps`: a chain that has steps is a chain of segments and
  separators.
-/
import SelectorPath.Proofs.Selector.Extent
import SelectorPath.Proofs.Text.Passes
import SelectorPath.Proofs.Text.Trimmed

namespace SelectorPath

open XPath Text

/-! ### Blanks and other white space -/

namespace Text

/-- All symbols of the text are blanks. -/
def IsBlanks (text : List Char) : Prop := ∀ c ∈ text, Symbol.isBlank c = true

instance (text : List Char) : Decidable (IsBlanks text) := List.decidableBAll _ text

/-- A blank is white space; the converse does not hold beyond ASCII. -/
lemma isSpace_of_isBlank {c : Char} (h : Symbol.isBlank c = true) : isSpace c = true := by
  simp only [Symbol.isBlank, Symbol.code, Bool.or_eq_true, beq_iff_eq] at h
  simp only [isSpace, Bool.or_eq_true, Bool.and_eq_true, decide_eq_true_eq, beq_iff_eq]
  omega

/-- White space is no bracket, no quotation mark and no mark of a selector. -/
lemma isPlain_of_isSpace {c : Char} (h : isSpace c = true) : IsPlain c ∧ c ≠ ':' ∧ c ≠ '>' := by
  refine ⟨?_, ?_, ?_⟩
  · intro hmem
    simp only [List.mem_cons, List.not_mem_nil, or_false] at hmem
    rcases hmem with rfl | rfl | rfl | rfl | rfl | rfl <;> exact absurd h (by decide)
  · rintro rfl
    exact absurd h (by decide)
  · rintro rfl
    exact absurd h (by decide)

lemma skipBlanks_eq_self {text : List Char} (h : ∀ c ∈ text.head?, Symbol.isBlank c = false) :
    skipBlanks text = text := by
  cases text with
  | nil => rfl
  | cons c text => simp [skipBlanks, h c rfl]

/-- Blanks in front of something else are skipped, and nothing more. -/
lemma skipBlanks_append {blanks text : List Char} (hblanks : IsBlanks blanks)
    (h : ∀ c ∈ text.head?, Symbol.isBlank c = false) : skipBlanks (blanks ++ text) = text := by
  rw [skipBlanks, List.dropWhile_append_of_pos hblanks]
  exact skipBlanks_eq_self h

lemma exists_skipBlanks (text : List Char) :
    ∃ blanks, text = blanks ++ skipBlanks text ∧ IsBlanks blanks :=
  ⟨text.takeWhile Symbol.isBlank, List.takeWhile_append_dropWhile.symm,
    fun _ hc => List.mem_takeWhile_imp hc⟩

lemma head_skipBlanks (text : List Char) :
    ∀ c ∈ (skipBlanks text).head?, Symbol.isBlank c = false := by
  intro c hc
  have hhead := List.head?_dropWhile_not Symbol.isBlank text
  rw [Option.mem_def, skipBlanks] at hc
  simpa [hc] using hhead

end Text

/-! ### Separators -/

namespace Segment

/-- A text that ends no segment begins with a symbol of its own. -/
lemma head_of_not_stops {text : List Char} (h : ¬ Stops text) :
    text ≠ [] ∧ (∀ c ∈ text.head?, Symbol.isBlank c = false) ∧ '>' ∉ text.head? := by
  cases text with
  | nil => exact absurd (fun c hc => by simp at hc) h
  | cons c text =>
      have hc : ¬ (Symbol.isBlank c = true ∨ c = '>') := fun hc => h fun d hd => by
        obtain rfl := Option.some.inj hd
        exact hc
      obtain ⟨hblank, hchild⟩ := not_or.mp hc
      refine ⟨List.cons_ne_nil c text, ?_, fun hmem => hchild (Option.some.inj hmem)⟩
      intro d hd
      obtain rfl := Option.some.inj hd
      exact Bool.eq_false_iff.mpr hblank

end Segment

namespace Combinator

open Segment

/-- The separators between two segments that stand for a combinator. -/
inductive Separates : Combinator → List Char → Prop
  | descendant {blanks : List Char} :
      blanks ≠ [] → IsBlanks blanks → Separates .descendant blanks
  | child {left right : List Char} :
      IsBlanks left → IsBlanks right → Separates .child (left ++ '>' :: right)

namespace Separates

variable {k : Combinator} {separator : List Char}

lemma ne_nil (h : k.Separates separator) : separator ≠ [] := by
  cases h with
  | descendant hne _ => exact hne
  | child _ _ => simp

/-- A separator is made of blanks and `>`. -/
lemma of_mem (h : k.Separates separator) {c : Char} (hc : c ∈ separator) :
    Symbol.isBlank c = true ∨ c = '>' := by
  cases h with
  | descendant _ hblanks => exact .inl (hblanks c hc)
  | child hleft hright =>
      rcases List.mem_append.mp hc with hc | hc
      · exact .inl (hleft c hc)
      · rcases List.mem_cons.mp hc with rfl | hc
        · exact .inr rfl
        · exact .inl (hright c hc)

/-- A separator opens and closes nothing, and there is no property in it. -/
lemma isPlain (h : k.Separates separator) : ∀ c ∈ separator, IsPlain c ∧ c ≠ ':' := by
  intro c hc
  rcases h.of_mem hc with hblank | rfl
  · obtain ⟨hplain, hne, -⟩ := isPlain_of_isSpace (isSpace_of_isBlank hblank)
    exact ⟨hplain, hne⟩
  · decide

/-- A segment is over in front of a separator. -/
lemma stops (h : k.Separates separator) (rest : List Char) : Stops (separator ++ rest) := by
  intro c hc
  rw [List.head?_append_of_ne_nil _ h.ne_nil] at hc
  exact h.of_mem (List.mem_of_mem_head? hc)

/-- The combinator is read from its separator. -/
lemma readCombinator_eq_ok (h : k.Separates separator) {rest : List Char} (hrest : ¬ Stops rest) :
    readCombinator (separator ++ rest) = .ok (k, rest) := by
  obtain ⟨hne, hblank, hchild⟩ := head_of_not_stops hrest
  cases h with
  | descendant hsome hblanks =>
      obtain ⟨b, blanks, rfl⟩ := List.exists_cons_of_ne_nil hsome
      have hany : (b :: blanks ++ rest).head?.any Symbol.isBlank = true :=
        hblanks b List.mem_cons_self
      rw [readCombinator, skipBlanks_append hblanks hblank]
      split
      · simp at hchild
      · exact absurd rfl hne
      · rw [if_pos hany]
  | @child left right hleft hright =>
      have hmark : ∀ c ∈ ('>' :: (right ++ rest)).head?, Symbol.isBlank c = false := by
        intro c hc
        obtain rfl := Option.some.inj hc
        decide
      rw [List.append_assoc, List.cons_append, readCombinator, skipBlanks_append hleft hmark]
      show Except.ok (Combinator.child, skipBlanks (right ++ rest)) = _
      rw [skipBlanks_append hright hblank]

end Separates

/-- What is read as a combinator, with a segment to follow, is a separator. -/
lemma separates_of_readCombinator {text rest : List Char} {k : Combinator}
    (h : readCombinator text = .ok (k, rest)) (hrest : rest ≠ []) :
    (∃ separator, text = separator ++ rest ∧ k.Separates separator) ∧
      ∀ c ∈ rest.head?, Symbol.isBlank c = false := by
  obtain ⟨blanks, htext, hblanks⟩ := exists_skipBlanks text
  have hhead := head_skipBlanks text
  rw [readCombinator] at h
  split at h
  · next after heq =>
      obtain ⟨rfl, rfl⟩ := by simpa using h
      obtain ⟨right, hafter, hright⟩ := exists_skipBlanks after
      refine ⟨⟨blanks ++ '>' :: right, ?_, .child hblanks hright⟩, head_skipBlanks after⟩
      rw [List.append_assoc, List.cons_append, ← hafter, ← heq]
      exact htext
  · obtain ⟨-, rfl⟩ := by simpa using h
    exact absurd rfl hrest
  · next c after _ heq =>
      split_ifs at h with hany
      obtain ⟨rfl, rfl⟩ := by simpa using h
      rw [heq] at htext hhead
      refine ⟨⟨blanks, htext, .descendant ?_ hblanks⟩, hhead⟩
      rintro rfl
      have hblank : Symbol.isBlank c = true := by simpa [htext] using hany
      exact absurd hblank (by simp [hhead c rfl])

/-- At the end of a text only blanks are read as a combinator that needs no
segment to follow. -/
lemma isBlanks_of_readCombinator {text : List Char}
    (h : readCombinator text = .ok (.descendant, [])) : IsBlanks text := by
  obtain ⟨blanks, htext, hblanks⟩ := exists_skipBlanks text
  rw [readCombinator] at h
  split at h
  · simp at h
  · next heq =>
      rw [heq, List.append_nil] at htext
      exact htext ▸ hblanks
  · split_ifs at h
    simp at h

end Combinator

/-! ### Chains -/

namespace Clause

open Segment

/-- The same segments with the same combinators between them, whatever
separators stand for these. -/
inductive Respaced : List Char → List Char → Prop
  | last {chain : List Char} {segment : Segment} :
      readCompound chain = .ok (segment, []) → Respaced chain chain
  | next {taken separator separator' rest rest' : List Char} {segment : Segment}
      {k : Combinator} :
      readCompound (taken ++ (separator ++ rest)) = .ok (segment, separator ++ rest) →
        k.Separates separator → k.Separates separator' → Respaced rest rest' →
          Respaced (taken ++ (separator ++ rest)) (taken ++ (separator' ++ rest'))

/-- A segment in front of a separator is the same in front of another one. -/
lemma readCompound_of_separates {taken separator separator' rest : List Char} {segment : Segment}
    (h : readCompound (taken ++ (separator ++ rest)) = .ok (segment, separator ++ rest))
    {k : Combinator} (hk : k.Separates separator') (rest' : List Char) :
    readCompound (taken ++ (separator' ++ rest')) = .ok (segment, separator' ++ rest') := by
  obtain ⟨taken', htaken, hsame⟩ := takes_readCompound h
  rw [List.append_cancel_right htaken]
  exact hsame _ (.inr (hk.stops rest'))

namespace Respaced

variable {chain chain' : List Char}

lemma symm (h : Respaced chain chain') : Respaced chain' chain := by
  induction h with
  | last hread => exact .last hread
  | next hread hk hk' _ ih => exact .next (readCompound_of_separates hread hk' _) hk' hk ih

/-- A chain that can be spaced anew begins with a segment. -/
lemma not_stops (h : Respaced chain chain') : ¬ Stops chain := by
  cases h with
  | last hread => exact not_stops_of_readCompound hread
  | next hread _ _ _ => exact not_stops_of_readCompound hread

/-- The chains begin and end alike. -/
lemma ends (h : Respaced chain chain') :
    chain'.head? = chain.head? ∧ chain'.getLast? = chain.getLast? := by
  induction h with
  | last _ => exact ⟨rfl, rfl⟩
  | @next taken separator separator' rest rest' segment k hread hk hk' hrest ih =>
      have hne : rest ≠ [] := (head_of_not_stops hrest.not_stops).1
      have hne' : rest' ≠ [] := (head_of_not_stops hrest.symm.not_stops).1
      have htaken : taken ≠ [] := by
        rintro rfl
        exact not_stops_of_readCompound hread (hk.stops rest)
      constructor
      · rw [List.head?_append_of_ne_nil _ htaken, List.head?_append_of_ne_nil _ htaken]
      · rw [← List.append_assoc, ← List.append_assoc, List.getLast?_append_of_ne_nil _ hne,
          List.getLast?_append_of_ne_nil _ hne', ih.2]

/-- The separators leave open what the segments leave open. -/
lemma after (h : Respaced chain chain') (s : Nesting) : s.after chain' = s.after chain := by
  induction h generalizing s with
  | last _ => rfl
  | next _ hk hk' _ ih =>
      simp only [Nesting.after_append, Nesting.after_eq_self fun c hc => (hk.isPlain c hc).1,
        Nesting.after_eq_self fun c hc => (hk'.isPlain c hc).1, ih]

/-- There is no property in a separator, and none comes about by it. -/
lemma lastExposed_eq_none (h : Respaced chain chain') {s : Nesting}
    (hnone : lastExposed [':', ':'] s chain = none) :
    lastExposed [':', ':'] s chain' = none := by
  induction h generalizing s with
  | last _ => exact hnone
  | @next taken separator separator' rest rest' segment k hread hk hk' hrest ih =>
      have hseparated := lastExposed_eq_none_of_append hnone
      have hafter : lastExposed [':', ':'] (s.after taken) rest = none := by
        have hskip := Nesting.after_eq_self (fun c hc => (hk.isPlain c hc).1) (s.after taken)
        rw [← hskip]
        exact lastExposed_eq_none_of_append hseparated
      have hhead : ':' ∉ (separator' ++ rest').head? := by
        intro hmem
        rw [List.head?_append_of_ne_nil _ hk'.ne_nil] at hmem
        exact (hk'.isPlain _ (List.mem_of_mem_head? hmem)).2 rfl
      exact lastExposed_append_eq_none hhead hnone
        (lastExposed_eq_none_of_plain hk'.isPlain (ih hafter))

end Respaced

/-! ### Steps -/

/-- The source shows in errors only. -/
lemma knownTest_source {nested : Nested} {source : String} {test : NodeTest} {pseudo : Pseudo}
    {known : PseudoClass} {found : NodeTest × Predicate}
    (h : knownTest nested source test pseudo known = .ok found) (source' : String) :
    knownTest nested source' test pseudo known = .ok found := by
  cases known with
  | firstChild | lastChild | empty | notEmpty => exact h
  | nthChild | nthOfType | contains | has | not =>
      obtain ⟨a, ha, h⟩ := Error.bind_eq_ok.mp h
      exact Error.bind_eq_ok.mpr ⟨a, Error.blame_eq_ok.mpr (Error.blame_eq_ok.mp ha), h⟩

/-- The source is named in errors only. -/
lemma toStep_source {nested : Nested} {source : String} {axis : Axis} {s : Segment} {step : Step}
    (h : s.toStep nested source axis = .ok step) (source' : String) :
    s.toStep nested source' axis = .ok step := by
  rw [toStep] at h ⊢
  split
  · next pseudo hpseudo =>
      rw [hpseudo] at h
      obtain ⟨found, hfound, h⟩ := Error.bind_eq_ok.mp h
      refine Error.bind_eq_ok.mpr ⟨found, ?_, h⟩
      rw [pseudoTest] at hfound ⊢
      split
      · next known hknown =>
          rw [hknown] at hfound
          exact knownTest_source hfound source'
      · next hnone => simp [hnone] at hfound
  · next hnone =>
      rw [hnone] at h
      dsimp only at h
      split_ifs at h ⊢
      exact h

/-- A segment with its separator, in front of the next segment. -/
lemma read_of_readCompound {text after rest : List Char} {segment : Segment} {k : Combinator}
    (h : readCompound text = .ok (segment, after)) (hk : readCombinator after = .ok (k, rest)) :
    Segment.read text = .ok ({ segment with combinator := k }, rest) := by
  obtain ⟨hne, hblank, -⟩ := head_of_not_stops (not_stops_of_readCompound h)
  rw [Segment.read, skipBlanks_eq_self hblank, if_neg (by simpa using hne), h]
  show (readCombinator after >>= _) = _
  rw [hk]
  rfl

/-- Chains with the same segments and combinators have the same steps. -/
theorem Respaced.steps_eq_ok {nested : Nested} {source : String} {axis : Axis}
    {chain chain' : List Char} {ss : List Step} (h : Respaced chain chain')
    (hsteps : steps nested source axis chain = .ok ss) (source' : String) :
    steps nested source' axis chain' = .ok ss := by
  -- one segment is read and translated alike; the rests are related again
  have hfirst : ∀ {chain rest chain' rest' : List Char} {segment : Segment} {axis : Axis}
      {ss : List Step}, chain ≠ [] → chain' ≠ [] →
      Segment.read chain = .ok (segment, rest) → Segment.read chain' = .ok (segment, rest') →
      (∀ more, steps nested source segment.combinator.axis rest = .ok more →
        steps nested source' segment.combinator.axis rest' = .ok more) →
      steps nested source axis chain = .ok ss → steps nested source' axis chain' = .ok ss := by
    intro chain rest chain' rest' segment axis ss hne hne' hread hread' hrest hsteps
    rw [steps_of_read_eq_ok hne hread] at hsteps
    obtain ⟨step, hstep, hsteps⟩ := Error.bind_eq_ok.mp hsteps
    obtain ⟨more, hmore, hsteps⟩ := Error.bind_eq_ok.mp hsteps
    rw [steps_of_read_eq_ok hne' hread']
    exact Error.bind_eq_ok.mpr ⟨step, toStep_source hstep source',
      Error.bind_eq_ok.mpr ⟨more, hrest more hmore, hsteps⟩⟩
  induction h generalizing axis ss with
  | last hcompound =>
      have hne := (head_of_not_stops (not_stops_of_readCompound hcompound)).1
      have hend : readCombinator [] = .ok (.descendant, []) := rfl
      have hread := read_of_readCompound hcompound hend
      refine hfirst hne hne hread hread ?_ hsteps
      intro more hmore
      rw [steps_nil] at hmore ⊢
      exact hmore
  | @next taken separator separator' rest rest' segment k hcompound hk hk' hrest ih =>
      have hcompound' := readCompound_of_separates hcompound hk' rest'
      have hread := read_of_readCompound hcompound (hk.readCombinator_eq_ok hrest.not_stops)
      have hread' :=
        read_of_readCompound hcompound' (hk'.readCombinator_eq_ok hrest.symm.not_stops)
      exact hfirst (head_of_not_stops (not_stops_of_readCompound hcompound)).1
        (head_of_not_stops (not_stops_of_readCompound hcompound')).1 hread hread'
        (fun _ hmore => ih hmore) hsteps

/-- A chain that has steps is made of segments and separators. -/
theorem respaced_of_steps {nested : Nested} {source : String} {axis : Axis} {chain : List Char}
    {ss : List Step} (hne : chain ≠ [])
    (hstart : ∀ c ∈ chain.head?, Symbol.isBlank c = false)
    (hend : EndsTrimmed chain) (h : steps nested source axis chain = .ok ss) :
    Respaced chain chain := by
  -- on the length of the chain; what is left of it begins without a blank and is trimmed
  induction hn : chain.length using Nat.strongRecOn generalizing axis chain ss with
  | _ n ih =>
    cases hread : Segment.read chain with
    | error cause =>
        rw [steps_of_read_eq_error hne hread] at h
        simp at h
    | ok r =>
        obtain ⟨segment, rest⟩ := r
        rw [steps_of_read_eq_ok hne hread] at h
        obtain ⟨step, -, h⟩ := Error.bind_eq_ok.mp h
        obtain ⟨more, hmore, -⟩ := Error.bind_eq_ok.mp h
        obtain ⟨compound, after, k, hcompound, hk, rfl⟩ := read_eq_ok hread
        rw [skipBlanks_eq_self hstart] at hcompound
        obtain ⟨taken, rfl, -⟩ := takes_readCompound hcompound
        by_cases hrest : rest = []
        · subst hrest
          rw [steps_nil] at hmore
          -- at the end there is no mark, for nothing would follow it
          cases k with
          | child => simp [Combinator.axis] at hmore
          | descendant =>
              -- blanks at the end would be spaces, and the chain is trimmed
              have hblanks := Combinator.isBlanks_of_readCombinator hk
              have hspaces : IsSpaces after := fun c hc => isSpace_of_isBlank (hblanks c hc)
              obtain rfl := eq_nil_of_endsTrimmed hspaces hend
              exact .last hcompound
        · obtain ⟨⟨separator, rfl, hseparates⟩, hstart'⟩ :=
            Combinator.separates_of_readCombinator hk hrest
          have hend' : EndsTrimmed rest := by
            rwa [← List.append_assoc, endsTrimmed_append hrest] at hend
          have hlt := length_of_read hread
          exact .next hcompound hseparates hseparates
            (ih rest.length (hn ▸ hlt) hrest hstart' hend' hmore rfl)

end Clause

end SelectorPath
