/-
Quoted values are taken over as they are.

On its way into a path a value goes through five readers: the one that looks for
commas, the one that looks for a property, the one that looks for the end of its
group, the one that takes its test or argument apart, and the one that takes off
its quotation marks. Inside a quotation all of them are blind.

* `Text.unquote_quotation`, `Text.trim_quotation`: what the last reader makes of a
  quotation.
* `Operator.comparisons`: the operators in front of a value, as they are written.
* `AttributeTest.ofBody_quotation`: the test with a quoted value.
* `Pseudo.containsCondition_quotation`: the condition of `:contains` for a quoted
  text.
* `Selector.compile_of_spelled`: a selector that is one segment is compiled to the
  step of that segment.
* `Selector.compile_quotation`: the selectors with a quoted value are compiled to
  the tests for that value.
-/
import SelectorPath.Proofs.Selector.Anchors
import SelectorPath.Proofs.Selector.Grammar
import SelectorPath.Proofs.Selector.Layout

namespace SelectorPath

open XPath Text

namespace Text

/-! ### A quotation by itself -/

@[simp] lemma unquote_quotation (q : Quote) (inner : List Char) :
    unquote (quotation q inner) = inner := by
  have hmark : Quote.of? q.mark = some q := Quote.of?_eq_some.mpr rfl
  simp [quotation, unquote, hmark]

/-- The marks protect white space inside a quotation. -/
lemma isTrimmed_quotation (q : Quote) (inner : List Char) : IsTrimmed (quotation q inner) := by
  constructor
  · intro c hc
    obtain rfl := Option.some.inj hc
    cases q <;> decide
  · intro c hc
    rw [quotation, ← List.cons_append, List.getLast?_concat] at hc
    obtain rfl := Option.some.inj hc
    cases q <;> decide

lemma trim_of_isTrimmed {text : List Char} (h : IsTrimmed text) : trim text = text :=
  trim_eq_iff.mpr ⟨h, [], [], by simp, by simp [IsSpaces], by simp [IsSpaces]⟩

@[simp] lemma trim_quotation (q : Quote) (inner : List Char) :
    trim (quotation q inner) = quotation q inner :=
  trim_of_isTrimmed (isTrimmed_quotation q inner)

/-- The body of a test that has a quotation behind plain symbols. -/
lemma grouped_append_quotation {label inner : List Char} (hlabel : ∀ c ∈ label, IsPlain c)
    {q : Quote} (h : q.mark ∉ inner) : Grouped .square (label ++ quotation q inner) := by
  induction label with
  | nil => simpa using Grouped.quoted (g := .square) q h .nil
  | cons c label ih =>
      obtain ⟨hc, hlabel⟩ := List.forall_mem_cons.mp hlabel
      have hclosing : c ∉ Grouping.square.closing := by
        intro hmem
        exact hc (by simp [List.mem_singleton.mp hmem])
      exact .other (of?_of_isPlain hc) (by simp [Grouping.square]) hclosing (ih hlabel)

end Text

/-! ### Attribute tests with a quoted value -/

/-- The operators that compare with a value, as they are written in front of
it. -/
def Operator.comparisons : List (Operator × String) :=
  [(.plain, "="), (.startsWith, "^="), (.endsWith, "$="), (.contains, "*="), (.notEquals, "!="),
    (.includes, "~=")]

/-- An operator is the sign of equality, with or without a mark before it. -/
lemma Operator.sign_of_mem_comparisons {op : Operator} {sign : String}
    (h : (op, sign) ∈ comparisons) :
    (op = .plain ∧ sign.toList = ['=']) ∨
      ∃ mark, ofMark? mark = some op ∧ sign.toList = [mark, '='] := by
  simp only [comparisons, List.mem_cons, Prod.mk.injEq, List.not_mem_nil, or_false] at h
  rcases h with ⟨rfl, rfl⟩ | ⟨rfl, rfl⟩ | ⟨rfl, rfl⟩ | ⟨rfl, rfl⟩ | ⟨rfl, rfl⟩ | ⟨rfl, rfl⟩
  · exact .inl ⟨rfl, rfl⟩
  · exact .inr ⟨'^', rfl, rfl⟩
  · exact .inr ⟨'$', rfl, rfl⟩
  · exact .inr ⟨'*', rfl, rfl⟩
  · exact .inr ⟨'!', rfl, rfl⟩
  · exact .inr ⟨'~', rfl, rfl⟩

/-- A mark before the sign of equality is no part of a name. -/
lemma Operator.mark_apart {mark : Char} {op : Operator} (h : ofMark? mark = some op) :
    op ≠ .absent ∧ mark ≠ '=' ∧ isSpace mark = false ∧
      AttributeTest.isNameSymbol mark = false := by
  rw [ofMark?.eq_def] at h
  split at h
  · obtain rfl := Option.some.inj h
    decide
  · obtain rfl := Option.some.inj h
    decide
  · obtain rfl := Option.some.inj h
    decide
  · obtain rfl := Option.some.inj h
    decide
  · obtain rfl := Option.some.inj h
    decide
  · simp at h

/-- A name of an attribute, without white space around it. -/
structure AttributeTest.IsLabel (name : List Char) : Prop where
  ne_nil : name ≠ []
  symbols : ∀ c ∈ name, isNameSymbol c = true
  trimmed : IsTrimmed name

namespace AttributeTest

variable {name : List Char}

/-- Neither the name nor the operator after it has brackets or quotation marks. -/
lemma IsLabel.isPlain_append (h : IsLabel name) {op : Operator} {sign : String}
    (hop : (op, sign) ∈ Operator.comparisons) : ∀ c ∈ name ++ sign.toList, IsPlain c := by
  have hname : IsWord (String.ofList name) :=
    isWord_of_class (p := isNameSymbol) (by decide) (by simpa using h.symbols)
  have hsigns : ∀ comparison ∈ Operator.comparisons, IsWord comparison.2 := by decide
  intro c hc
  rcases List.mem_append.mp hc with hc | hc
  · exact (hname c (by simpa using hc)).1
  · exact (hsigns _ hop c hc).1

/-- A symbol of a name is none of the marks around it. -/
lemma IsLabel.not_mem (h : IsLabel name) {c : Char} (hc : isNameSymbol c = false) : c ∉ name := by
  intro hmem
  simp [h.symbols c hmem] at hc

/-- No operator stands in front of the name itself. -/
lemma IsLabel.leadingOperator_append (h : IsLabel name) (rest : List Char) :
    leadingOperator (name ++ rest) = (.plain, name ++ rest) := by
  obtain ⟨c, name, rfl⟩ := List.exists_cons_of_ne_nil h.ne_nil
  have hmark : ∀ m, isNameSymbol m = false → c ≠ m := by
    rintro m hm rfl
    exact h.not_mem hm List.mem_cons_self
  rw [List.cons_append, leadingOperator]
  · rintro _ heq
    exact hmark '^' (by decide) (List.cons.inj heq).1
  · rintro _ heq
    exact hmark '!' (by decide) (List.cons.inj heq).1

/-- The operator of a name that none follows. -/
lemma IsLabel.splitOperator_plain (h : IsLabel name) (body : List Char) :
    splitOperator body name = .ok (.plain, name) := by
  have hleading := h.leadingOperator_append []
  rw [List.append_nil] at hleading
  have htrailing : trailingOperator name = none := by
    have hlast : ∀ c ∈ name.getLast?, Operator.ofMark? c = none := by
      intro c hc
      have hsymbol := h.symbols c (List.mem_of_mem_getLast? hc)
      cases hop : Operator.ofMark? c with
      | none => rfl
      | some op =>
          obtain ⟨-, -, -, hmark⟩ := Operator.mark_apart hop
          simp [hsymbol] at hmark
    rw [trailingOperator, List.getLast?_eq_some_getLast h.ne_nil, Option.bind_some,
      hlast _ (List.getLast?_eq_some_getLast h.ne_nil), Option.map_none]
  simp only [splitOperator, hleading, htrailing]

/-- The operator of a name that one follows. -/
lemma IsLabel.splitOperator_mark (h : IsLabel name) {mark : Char} {op : Operator}
    (hmark : Operator.ofMark? mark = some op) (body : List Char) :
    splitOperator body (name ++ [mark]) = .ok (op, name) := by
  have htrailing : trailingOperator (name ++ [mark]) = some (op, name) := by
    simp [trailingOperator, hmark]
  simp only [splitOperator, h.leadingOperator_append, htrailing, if_true]

/-- The parts of a body around the sign of equality. -/
lemma splitValue_quotation {label : List Char} (h : '=' ∉ label) (q : Quote) (v : List Char) :
    splitValue (label ++ '=' :: quotation q v) = (label, some (String.ofList v)) := by
  have hlabel : ∀ c ∈ label, (c != '=') = true := by
    intro c hc
    rw [bne_iff_ne]
    rintro rfl
    exact h hc
  have hdrop : (label ++ '=' :: quotation q v).dropWhile (· != '=') = '=' :: quotation q v := by
    rw [List.dropWhile_append_of_pos hlabel]
    simp
  have htake : (label ++ '=' :: quotation q v).takeWhile (· != '=') = label := by
    rw [List.takeWhile_append_of_pos hlabel]
    simp
  rw [splitValue, hdrop, htake]
  show (label, some (String.ofList (unquote (trim (quotation q v))))) = _
  rw [trim_quotation, unquote_quotation]

/-- A name and a value that are there go together with every comparison. -/
lemma IsLabel.checked_eq (h : IsLabel name) {op : Operator} (hop : op ≠ .absent)
    (body : List Char) (v : String) :
    checked body name op (some v) = .ok ⟨String.ofList name, op, some v⟩ := by
  have hsymbols : name.all isNameSymbol = true := List.all_eq_true.mpr h.symbols
  simp [checked, h.ne_nil, hsymbols, hop]

/-- The value of a test is what stands between the quotation marks. -/
lemma ofBody_quotation (h : IsLabel name) {op : Operator} {sign : String}
    (hop : (op, sign) ∈ Operator.comparisons) (q : Quote) (v : List Char) :
    ofBody (name ++ (sign.toList ++ quotation q v)) =
      .ok ⟨String.ofList name, op, some (String.ofList v)⟩ := by
  have hequal : '=' ∉ name := h.not_mem (by decide)
  have hend : trimEnd name = name := by
    have htrim : trimEnd (name ++ []) = name := trimEnd_append (by simp [IsSpaces]) h.trimmed.2
    rwa [List.append_nil] at htrim
  rcases Operator.sign_of_mem_comparisons hop with ⟨rfl, hsign⟩ | ⟨mark, hmark, hsign⟩
  · rw [hsign, List.singleton_append, ofBody, splitValue_quotation hequal]
    show (splitOperator _ (trim name) >>= _) = _
    rw [trim_of_isTrimmed h.trimmed, h.splitOperator_plain]
    show checked _ (trimEnd name) .plain _ = _
    rw [hend, h.checked_eq (by decide)]
  · obtain ⟨habsent, hne, hspace, -⟩ := Operator.mark_apart hmark
    have htrimmed : IsTrimmed (name ++ [mark]) :=
      ⟨(startsTrimmed_append h.ne_nil).mpr h.trimmed.1,
        (endsTrimmed_append (by simp)).mpr (by simpa [EndsTrimmed] using hspace)⟩
    have hlabel : '=' ∉ name ++ [mark] := by simp [hequal, hne.symm]
    have hbody : name ++ ([mark, '='] ++ quotation q v) =
        (name ++ [mark]) ++ '=' :: quotation q v := by simp
    rw [hsign, hbody, ofBody, splitValue_quotation hlabel]
    show (splitOperator _ (trim (name ++ [mark])) >>= _) = _
    rw [trim_of_isTrimmed htrimmed, h.splitOperator_mark hmark]
    show checked _ (trimEnd name) op _ = _
    rw [hend, h.checked_eq habsent]

end AttributeTest

/-! ### `:contains` with a quoted text -/

/-- The condition of `:contains` by the parts of its argument. -/
lemma Pseudo.containsCondition_of_cut {argument first : List Char} {more : List (List Char)}
    (hne : argument ≠ []) (hcut : cutTopLevel ',' argument = some (first, more)) :
    containsCondition ⟨"contains", some (String.ofList argument)⟩ =
      if more.head?.map trim = some ['t', 'r', 'u', 'e'] then
        .ok (.equal ⟨.wide, .texts, .literal (String.ofList (unquote (trim first)))⟩)
      else .ok (.caseless (String.ofList (unquote (trim first)))) := by
  have hargument : requiredArgument ⟨"contains", some (String.ofList argument)⟩ =
      .ok (String.ofList argument) := by
    simp [requiredArgument, hne]
  simp only [containsCondition, hargument, bind, Except.bind, String.toList_ofList, hcut]

/-- The text of `:contains` is what stands between the quotation marks. -/
lemma Pseudo.containsCondition_quotation {q : Quote} {v : List Char} (hv : q.mark ∉ v) :
    containsCondition ⟨"contains", some (String.ofList (quotation q v))⟩ =
        .ok (.caseless (String.ofList v)) ∧
      containsCondition ⟨"contains", some (String.ofList (quotation q v ++ ", true".toList))⟩ =
        .ok (.equal ⟨.wide, .texts, .literal (String.ofList v)⟩) := by
  have hcut : ∀ rest, cutTopLevel ',' (quotation q v ++ rest) =
      (cutTopLevel ',' rest).map (prepend (quotation q v)) := fun rest => cut_of_quotation hv rest
  have halone : cutTopLevel ',' (quotation q v) = some (quotation q v, []) := by
    simpa [cutTopLevel, cut, Nesting.top, prepend] using hcut []
  have hflagged : cutTopLevel ',' (quotation q v ++ ", true".toList) =
      some (quotation q v, [" true".toList]) := by
    rw [hcut, show cutTopLevel ',' ", true".toList = some ([], [" true".toList]) by decide]
    simp [prepend]
  constructor
  · rw [containsCondition_of_cut (by simp [quotation]) halone, if_neg (by simp), trim_quotation,
      unquote_quotation]
  · rw [containsCondition_of_cut (by simp [quotation]) hflagged, if_pos (by decide),
      trim_quotation, unquote_quotation]

/-! ### Selectors of one segment -/

namespace Selector

/-- A trimmed text is cut at no comma, if it exposes none. -/
lemma splitUnion_of_balanced {text : List Char} (hne : text ≠ []) (htrimmed : IsTrimmed text)
    (h : Balanced (· ≠ ',') text) : Clause.splitUnion text = .ok [text] := by
  have hsplit : splitTopLevel ',' text = some [text] := by
    simpa using splitTopLevel_intercalate (by decide) (List.cons_ne_nil text [])
      fun p hp => by simpa [List.mem_singleton.mp hp] using h
  rw [Clause.splitUnion, hsplit]
  simp [trim_of_isTrimmed htrimmed, hne]

/-- A selector that is one segment, without commas and properties outside of
groups and quotations, is compiled to the step of that segment. -/
lemma compile_of_spelled {text : List Char} {segment : Segment} {step : Step}
    (hunion : Balanced (· ≠ ',') text) (hproperty : lastTopLevel [':', ':'] text = none)
    (htrimmed : IsTrimmed text) (hspelled : Segment.Spelled [] segment text)
    (hdescendant : segment.combinator = .descendant)
    (hstep : segment.toStep paths (String.ofList text) .descendant = .ok step)
    (folding : Folding) :
    compile folding (String.ofList text) =
      .ok ⟨[Path.render folding .document ⟨[step], none⟩]⟩ := by
  have hread : Segment.read text = .ok (segment, []) :=
    Segment.read_eq_ok_iff.mpr ⟨text, by simp, hspelled⟩
  -- a trimmed text begins with no blank, so its first part is read at once
  have hstops : ¬ Segment.Stops text := by
    obtain ⟨compound, after, _, hcompound, -⟩ := Segment.read_eq_ok hread
    have hblank : ∀ c ∈ text.head?, Symbol.isBlank c = false := by
      intro c hc
      refine Bool.eq_false_iff.mpr fun hblank => ?_
      simpa [isSpace_of_isBlank hblank] using htrimmed.1 c hc
    rw [skipBlanks_eq_self hblank] at hcompound
    exact Segment.not_stops_of_readCompound hcompound
  obtain ⟨hne, -, -⟩ := Segment.head_of_not_stops hstops
  let l : Clause.Layout := ⟨[], none, text, none, []⟩
  have hsource : l.source = text := by
    simp [l, Clause.Layout.source, Clause.Layout.body, Clause.Layout.lead, Clause.Layout.gap,
      Clause.Layout.tail]
  have hdescribes : l.Describes text :=
    ⟨by simp [Clause.Layout.text, hsource, l],
      ⟨by simp [l, IsSpaces], by simp [l], by simp [l, Clause.Layout.gap, IsSpaces],
        by simp [l, IsSpaces]⟩, htrimmed, by simp [l], by rw [hsource, hproperty]; rfl⟩
  have hpath : Clause.toPath paths text = .ok ⟨[step], none⟩ := by
    refine (hdescribes.toPath_eq_ok hstops).mpr ⟨rfl, ?_⟩
    show Clause.steps paths (String.ofList l.source) .descendant text = _
    rw [hsource, Clause.steps_of_read_eq_ok hne hread, hstep, hdescendant]
    show (Clause.steps paths _ .descendant [] >>= _) = _
    rw [Clause.steps_nil]
    rfl
  have hpaths : paths (String.ofList text).toList = .ok [⟨[step], none⟩] := by
    rw [String.toList_ofList, paths_eq, Clause.unionPaths,
      splitUnion_of_balanced hne htrimmed hunion]
    show [text].mapM (Clause.toPath paths) = _
    rw [List.mapM_cons, hpath]
    rfl
  rw [compile_of_ok hpaths]
  rfl

/-- The text of a step that asks for one thing of all elements. -/
lemma render_single (folding : Folding) (condition : Condition) :
    Path.render folding .document ⟨[⟨.descendant, .any, [.holds condition]⟩], none⟩ =
      "//*[" ++ condition.render folding ++ "]" := by
  simp only [Path.render, Path.outline, Step.bodies, Step.body, Predicate.renderAll,
    Predicate.render, Outline.render, Outline.chain, Outline.ending, Anchor.lead, Axis.slashes,
    bracketed, NodeTest.text, Option.map_none, List.map_nil, String.join_nil, String.append_empty]
  rw [← String.append_assoc, ← String.append_assoc, ← String.append_assoc]
  rfl

/-- A selector that is one attribute test. -/
lemma compile_attribute {body : List Char} {test : AttributeTest} (hgrouped : Grouped .square body)
    (hbalanced : Balanced (fun _ => True) body) (htest : AttributeTest.ofBody body = .ok test)
    (folding : Folding) :
    compile folding (String.ofList ('[' :: (body ++ [']']))) =
      .ok ⟨["//*[" ++ test.condition.render folding ++ "]"]⟩ := by
  have hgroup : ∀ outside : Char → Prop, Balanced outside ('[' :: (body ++ [']'])) :=
    fun _ => .group .square hbalanced
  have htrimmed : IsTrimmed ('[' :: (body ++ [']'])) := by
    refine ⟨by simpa [StartsTrimmed] using by decide, ?_⟩
    show EndsTrimmed (('[' :: body) ++ [']'])
    exact (endsTrimmed_append (by simp)).mpr (by decide)
  have hspelled : Segment.Spelled [] { attributes := [test] } ('[' :: (body ++ [']'])) := by
    refine ⟨[], [], [], [], '[' :: (body ++ [']']), [], [], by simp, ⟨by simp [IsBlanks], ?_⟩,
      .none, .none, .nil, .cons hgrouped htest .nil, .none, .ending rfl, by simp, rfl⟩
    simpa using by decide
  rw [compile_of_spelled (hgroup _) (lastTopLevel_of_balanced (hgroup _)) htrimmed hspelled rfl rfl,
    ← render_single]
  rfl

/-- The call of `:contains` in a selector. -/
def containsCall (argument : List Char) : List Char :=
  ':' :: ("contains".toList ++ '(' :: (argument ++ [')']))

/-- A selector that is `:contains` with its argument. -/
lemma compile_contains {argument : List Char} {condition : Condition}
    (hbalanced : Balanced (fun _ => True) argument) (htrim : trim argument = argument)
    (hcondition :
      Pseudo.containsCondition ⟨"contains", some (String.ofList argument)⟩ = .ok condition)
    (folding : Folding) :
    compile folding (String.ofList (containsCall argument)) =
      .ok ⟨["//*[" ++ condition.render folding ++ "]"]⟩ := by
  -- in parentheses the argument may hold any marks; around it there are none
  have hcall : ∀ mark, mark ∉ "contains".toList →
      Balanced (· ≠ mark) ("contains".toList ++ '(' :: (argument ++ [')'])) := by
    intro mark hmark
    have hword : IsWord "contains" := by decide
    exact Balanced.call (fun c hc => ⟨(hword c hc).1, fun h => hmark (h ▸ hc)⟩) hbalanced
  have hunion : Balanced (· ≠ ',') (containsCall argument) := by
    have hcolon : Balanced (· ≠ ',') [':'] := .plain (by decide) (by decide)
    exact hcolon.append (hcall ',' (by decide))
  have hproperty : lastTopLevel [':', ':'] (containsCall argument) = none := by
    have hrest := lastTopLevel_of_balanced (hcall ':' (by decide))
    rw [lastTopLevel] at hrest
    -- the colon in front is followed by a letter, so it begins no property
    rw [containsCall, lastTopLevel, lastExposed_cons, Nesting.step_eq_self (by decide), hrest]
    rfl
  have htrimmed : IsTrimmed (containsCall argument) := by
    refine ⟨by simpa [containsCall, StartsTrimmed] using by decide, ?_⟩
    show EndsTrimmed ((':' :: "contains".toList) ++ '(' :: (argument ++ [')']))
    rw [endsTrimmed_append (by simp)]
    show EndsTrimmed (('(' :: argument) ++ [')'])
    exact (endsTrimmed_append (by simp)).mpr (by decide)
  have hspelled : Segment.Spelled []
      { pseudo := some ⟨"contains", some (String.ofList argument)⟩ } (containsCall argument) := by
    have hname : Segment.IsName "contains".toList ('(' :: (argument ++ [')'])) :=
      ⟨by decide, List.all_eq_true.mp (by decide), by simpa using by decide⟩
    have hpseudo : Segment.SpelledPseudo [] (some ⟨String.ofList "contains".toList,
        some (String.ofList (trim argument))⟩) (containsCall argument) :=
      .argument hname (.of_balanced hbalanced)
    rw [htrim, String.ofList_toList] at hpseudo
    refine ⟨[], [], [], [], [], containsCall argument, [], by simp, ⟨by simp [IsBlanks], ?_⟩,
      .none, .none, .nil, .nil, hpseudo, .ending rfl, by simp, rfl⟩
    simpa [containsCall] using by decide
  have hstep : Segment.toStep paths (String.ofList (containsCall argument)) .descendant
      { pseudo := some ⟨"contains", some (String.ofList argument)⟩ } =
      .ok ⟨.descendant, .any, [.holds condition]⟩ := by
    have hknown : PseudoClass.ofName? "contains" = some .contains := by decide +kernel
    simp [Segment.toStep, Segment.pseudoTest, hknown, Segment.knownTest, hcondition, Error.blame,
      Segment.conditions, bind, Except.bind, pure, Except.pure]
  rw [compile_of_spelled hunion hproperty htrimmed hspelled rfl hstep, ← render_single]

/-- A text in quotation marks. -/
def quoted (q : Quote) (v : String) : String := String.ofList (quotation q v.toList)

/-- **Quoted values are taken over verbatim.** In an attribute test and in
`:contains` a value between quotation marks is compiled to the test for just this
value, whatever stands in it beside the mark itself. -/
theorem compile_quotation (v : String) (q : Quote) (hv : q.mark ∉ v.toList) :
    (∀ (name : String), AttributeTest.IsLabel name.toList →
      ∀ op sign, (op, sign) ∈ Operator.comparisons → ∀ folding,
        compile folding ("[" ++ name ++ sign ++ quoted q v ++ "]") =
          .ok ⟨["//*[" ++ (AttributeTest.mk name op (some v)).condition.render folding ++ "]"]⟩) ∧
      (∀ folding, compile folding (":contains(" ++ quoted q v ++ ", true)") =
        .ok ⟨["//*[text() = " ++ literal v ++ "]"]⟩) ∧
      compile .lowerCase (":contains(" ++ quoted q v ++ ")") =
        .ok ⟨["//*[lower-case(.) = lower-case(" ++ literal v ++ ")]"]⟩ := by
  obtain ⟨hfolded, hexact⟩ := Pseudo.containsCondition_quotation hv
  rw [String.ofList_toList] at hfolded hexact
  -- whatever the value holds, its quotation exposes nothing
  have hquoted : Balanced (fun _ => True) (quotation q v.toList) := .quoted q hv
  refine ⟨fun name hname op sign hop folding => ?_, fun folding => ?_, ?_⟩
  · have hlabel := hname.isPlain_append hop
    have hbody := AttributeTest.ofBody_quotation hname hop q v.toList
    rw [← List.append_assoc, String.ofList_toList, String.ofList_toList] at hbody
    have hsource : "[" ++ name ++ sign ++ quoted q v ++ "]" = String.ofList
        ('[' :: (name.toList ++ sign.toList ++ quotation q v.toList ++ [']'])) := by
      simp [String.ext_iff, quoted]
    rw [hsource]
    exact compile_attribute (grouped_append_quotation hlabel hv)
      ((Balanced.of_plain fun c hc => ⟨hlabel c hc, trivial⟩).append hquoted) hbody folding
  · have hsource : ":contains(" ++ quoted q v ++ ", true)" =
        String.ofList (containsCall (quotation q v.toList ++ ", true".toList)) := by
      simp [String.ext_iff, quoted, containsCall]
    have hflag : Balanced (fun _ => True) ", true".toList := .of_plain (by simp; decide)
    have htrim : trim (quotation q v.toList ++ ", true".toList) =
        quotation q v.toList ++ ", true".toList :=
      trim_of_isTrimmed ⟨(startsTrimmed_append (by simp [quotation])).mpr
        (isTrimmed_quotation q v.toList).1, (endsTrimmed_append (by simp)).mpr (by decide)⟩
    rw [hsource, compile_contains (hquoted.append hflag) htrim hexact]
    show Except.ok (Compiled.mk ["//*[" ++ ("text()" ++ " = " ++ literal v) ++ "]"]) = _
    simp [String.ext_iff]
  · have hsource : ":contains(" ++ quoted q v ++ ")" =
        String.ofList (containsCall (quotation q v.toList)) := by
      simp [String.ext_iff, quoted, containsCall]
    rw [hsource, compile_contains hquoted (trim_quotation q v.toList) hfolded]
    show Except.ok (Compiled.mk ["//*[" ++
      ("lower-case(" ++ "." ++ ")" ++ " = " ++ ("lower-case(" ++ literal v ++ ")")) ++ "]"]) = _
    simp [String.ext_iff]

/-- A value that has everything in it that means something elsewhere. -/
theorem compile_quotation_hostile :
    compile .ascii "[xml:lang~=' ,\n::> [=(])\"']" = .ok
      ⟨["//*[contains(concat(\" \", normalize-space(@xml:lang), \" \"), '  ,\n::> [=(])\" ')]"]⟩ ∧
      compile .ascii ":contains(' ,\n::> [=(])\"', true)" =
        .ok ⟨["//*[text() = ' ,\n::> [=(])\"']"]⟩ ∧
      compile .lowerCase ":contains(' ,\n::> [=(])\"')" =
        .ok ⟨["//*[lower-case(.) = lower-case(' ,\n::> [=(])\"')]"]⟩ := by
  obtain ⟨htest, hexact, hfolded⟩ :=
    compile_quotation " ,\n::> [=(])\"" .single (by decide)
  refine ⟨?_, ?_, ?_⟩
  · exact htest "xml:lang" ⟨by decide, List.all_eq_true.mp (by decide), by decide⟩ .includes "~="
      (by decide) .ascii
  · exact hexact .ascii
  · exact hfolded

end Selector

end SelectorPath
