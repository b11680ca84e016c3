/-
Clauses that differ in white space only.

A clause has white space of four kinds that means nothing: around it, after a
leading `>`, between its segments and before its property. Here a clause is
taken apart into what means something and the white space around that.

* `Clause.Layout`: the parts of a clause with the white space around them.
* `Clause.Layout.Describes`: the layout of a clause as the parts are found in it.
* `Clause.Layout.toPath_eq_ok`: the path of a clause, part by part.
* `Clause.Layout.Respaced`: the same parts with other white space.
* `Selector.compileClause_respaced`: such clauses compile to the same text.
-/
import SelectorPath.Proofs.Selector.Spacing

namespace SelectorPath

open XPath Text

namespace Clause

/-- The parts of a clause with the white space around them. -/
structure Layout where
  /-- The white space before the clause. -/
  before : List Char
  /-- The white space after a leading `>`, if there is one. -/
  opening : Option (List Char)
  /-- The segments with the separators between them. -/
  chain : List Char
  /-- The white space before `::` and the text after it, if there is one. -/
  ending : Option (List Char × List Char)
  /-- The white space behind the clause. -/
  behind : List Char

namespace Layout

/-- A leading `>` with the white space after it. -/
def lead (l : Layout) : List Char := l.opening.elim [] ('>' :: ·)

/-- The white space before a property. -/
def gap (l : Layout) : List Char := l.ending.elim [] Prod.fst

/-- The property with its mark. -/
def tail (l : Layout) : List Char := l.ending.elim [] fun ending => ':' :: ':' :: ending.2

/-- The clause up to its property. -/
def body (l : Layout) : List Char := l.lead ++ (l.chain ++ l.gap)

/-- The clause without the white space around it. -/
def source (l : Layout) : List Char := l.body ++ l.tail

/-- The whole clause. -/
def text (l : Layout) : List Char := l.before ++ (l.source ++ l.behind)

/-- The axis of the first step. -/
def axis (l : Layout) : Axis := if l.opening.isSome then .child else .descendant

/-- The property that the clause ends with. -/
def property (l : Layout) : Except Cause (Option Property) :=
  match l.ending.map Prod.snd with
  | none => .ok none
  | some text => (Property.read text).map some

/-- There is nothing but white space where white space should be. -/
structure IsSpaced (l : Layout) : Prop where
  before : IsSpaces l.before
  opening : ∀ spaces ∈ l.opening, IsSpaces spaces
  gap : IsSpaces l.gap
  behind : IsSpaces l.behind

/-- The layout of a clause: the parts have no white space around them, and the
property is found where it stands. -/
structure Describes (l : Layout) (clause : List Char) : Prop where
  text_eq : clause = l.text
  spaced : l.IsSpaced
  chain : IsTrimmed l.chain
  property : ∀ ending ∈ l.ending, EndsTrimmed ending.2
  found : lastTopLevel [':', ':'] l.source = l.ending.map fun _ => l.body.length

/-- The same parts with other white space around them. -/
structure Respaced (l l' : Layout) : Prop where
  spaced : l'.IsSpaced
  opening : l'.opening.isSome = l.opening.isSome
  chain : Clause.Respaced l.chain l'.chain
  property : l'.ending.map Prod.snd = l.ending.map Prod.snd

variable {l l' : Layout} {clause : List Char}

/-! ### The path of a clause, part by part -/

lemma Describes.isTrimmed_lead (h : l.Describes clause) (hne : l.chain ≠ []) :
    IsTrimmed (l.lead ++ l.chain) := by
  refine ⟨?_, (endsTrimmed_append hne).mpr h.chain.2⟩
  rw [lead]
  cases l.opening with
  | none => exact h.chain.1
  | some spaces =>
      intro c hc
      obtain rfl := Option.some.inj hc
      decide

/-- The clause and its property are trimmed together. -/
lemma Describes.isTrimmed_source (h : l.Describes clause) (hne : l.chain ≠ []) :
    IsTrimmed l.source := by
  have hlead := h.isTrimmed_lead hne
  have hlead_ne : l.lead ++ l.chain ≠ [] := by simp [hne]
  have hstart : l.source = (l.lead ++ l.chain) ++ (l.gap ++ l.tail) := by
    simp [source, body]
  constructor
  · rw [hstart]
    exact (startsTrimmed_append hlead_ne).mpr hlead.1
  · rw [hstart, gap, tail]
    cases hending : l.ending with
    | none => simpa using hlead.2
    | some ending =>
        obtain ⟨spaces, text⟩ := ending
        have htext : EndsTrimmed text := h.property _ hending
        have hend : EndsTrimmed ([':', ':'] ++ text) := by
          by_cases hnil : text = []
          · subst hnil
            intro c hc
            obtain rfl := Option.some.inj hc
            decide
          · exact (endsTrimmed_append hnil).mpr htext
        rw [Option.elim_some, Option.elim_some, ← List.append_assoc]
        exact (endsTrimmed_append (by simp)).mpr hend

/-- Trimming takes away the white space around a clause. -/
lemma Describes.trim_eq (h : l.Describes clause) (hne : l.chain ≠ []) :
    trim clause = l.source :=
  trim_eq_iff.mpr
    ⟨h.isTrimmed_source hne, l.before, l.behind, h.text_eq, h.spaced.before, h.spaced.behind⟩

/-- The property comes off with its mark. -/
lemma Describes.splitProperty_eq (h : l.Describes clause) :
    splitProperty l.source = l.property.map fun property => (l.body, property) := by
  have hfound := h.found
  rw [splitProperty, hfound, Layout.property]
  cases hending : l.ending with
  | none => simp [source, tail, hending, Except.map]
  | some ending =>
      obtain ⟨spaces, text⟩ := ending
      have hsource : l.source = l.body ++ ([':', ':'] ++ text) := by
        simp [source, tail, hending]
      have hdrop : l.source.drop (l.body.length + 2) = text := by
        rw [hsource, ← List.append_assoc]
        exact List.drop_left' (by simp)
      have htake : l.source.take l.body.length = l.body := by
        rw [hsource, List.take_left]
      simp only [Option.map_some, hdrop, htake]
      cases Property.read text <;> rfl

/-- The leading `>` comes off with the white space after it. -/
lemma Describes.splitAxis_eq (h : l.Describes clause) (hstops : ¬ Segment.Stops l.chain) :
    splitAxis l.body = (l.axis, l.chain) := by
  obtain ⟨hne, -, hchild⟩ := Segment.head_of_not_stops hstops
  have htrim : trim l.body = l.lead ++ l.chain :=
    trim_eq_iff.mpr ⟨h.isTrimmed_lead hne, [], l.gap, by simp [body], by simp [IsSpaces],
      h.spaced.gap⟩
  rw [splitAxis, htrim, lead, axis]
  cases hopening : l.opening with
  | none =>
      rw [Option.elim_none, List.nil_append]
      split
      · next rest heq => simp [heq] at hchild
      · rfl
  | some spaces =>
      show (Axis.child, trimStart (spaces ++ l.chain)) = _
      rw [trimStart_append (h.spaced.opening spaces hopening) h.chain.1]
      rfl

/-- The path of a clause is made of its property and the steps of its chain. -/
theorem Describes.toPath_eq_ok (h : l.Describes clause) (hstops : ¬ Segment.Stops l.chain)
    {nested : Segment.Nested} {path : Path} :
    toPath nested clause = .ok path ↔
      l.property = .ok path.property ∧
        steps nested (String.ofList l.source) l.axis l.chain = .ok path.steps := by
  obtain ⟨hne, -, -⟩ := Segment.head_of_not_stops hstops
  have hsource : l.source ≠ [] := by simp [source, body, hne]
  rw [toPath, h.trim_eq hne, if_neg (by simpa using hsource), pathOfTrimmed]
  simp only [h.splitProperty_eq]
  cases l.property with
  | error cause => simp [Except.map, Error.blame, bind, Except.bind]
  | ok property =>
      show (if (splitAxis l.body).2.isEmpty then _ else _) = _ ↔ _
      rw [h.splitAxis_eq hstops, if_neg (by simpa using hne)]
      constructor
      · intro hpath
        obtain ⟨ss, hsteps, hpath⟩ := Error.bind_eq_ok.mp hpath
        obtain rfl := Error.pure_eq_ok.mp hpath
        exact ⟨rfl, hsteps⟩
      · rintro ⟨hproperty, hsteps⟩
        obtain ⟨ss, property'⟩ := path
        obtain rfl : property = property' := Except.ok.inj hproperty
        exact Error.bind_eq_ok.mpr ⟨ss, hsteps, rfl⟩

/-! ### Other white space -/

lemma isPlain_lead (h : l.IsSpaced) : ∀ c ∈ l.lead, IsPlain c ∧ c ≠ ':' := by
  rw [lead]
  cases hopening : l.opening with
  | none => simp
  | some spaces =>
      intro c hc
      rcases List.mem_cons.mp hc with rfl | hc
      · decide
      · obtain ⟨hplain, hne, -⟩ := isPlain_of_isSpace (h.opening spaces hopening c hc)
        exact ⟨hplain, hne⟩

/-- White space leaves open what the chain leaves open. -/
lemma after_body (h : l.IsSpaced) (s : Nesting) : s.after l.body = s.after l.chain := by
  have hlead := Nesting.after_eq_self fun c hc => (isPlain_lead h c hc).1
  have hgap := Nesting.after_eq_self fun c hc => (isPlain_of_isSpace (h.gap c hc)).1
  rw [body, Nesting.after_append, Nesting.after_append, hlead, hgap]

/-- The property is found where it stands in the other clause too. -/
lemma Respaced.found (hl : l.IsSpaced) (h : l.Respaced l')
    (hfound : lastTopLevel [':', ':'] l.source = l.ending.map fun _ => l.body.length) :
    lastTopLevel [':', ':'] l'.source = l'.ending.map fun _ => l'.body.length := by
  have hproperty := h.property
  rw [lastTopLevel] at hfound ⊢
  cases hending : l.ending with
  | none =>
      obtain hending' : l'.ending = none := by simpa [hending] using hproperty
      have hsource : l.source = l.lead ++ l.chain := by simp [source, body, gap, tail, hending]
      have hsource' : l'.source = l'.lead ++ l'.chain := by
        simp [source, body, gap, tail, hending']
      rw [hending, hsource] at hfound
      rw [hending', hsource']
      -- the lead has no marks, so the search begins in the chain, at the top level
      refine lastExposed_eq_none_of_plain (isPlain_lead h.spaced) (h.chain.lastExposed_eq_none ?_)
      rw [← Nesting.after_eq_self (fun c hc => (isPlain_lead hl c hc).1) Nesting.top]
      exact lastExposed_eq_none_of_append hfound
  | some ending =>
      obtain ⟨ending', hending', htext⟩ : ∃ ending', l'.ending = some ending' ∧
          ending'.2 = ending.2 := by simpa [hending] using hproperty
      have htail : l'.tail = l.tail := by simp [tail, hending, hending', htext]
      -- the tails are the same text and are reached in the same state
      have hafter : Nesting.top.after l'.body = Nesting.top.after l.body := by
        rw [after_body h.spaced, after_body hl, h.chain.after]
      rw [hending, source] at hfound
      rw [hending', source, htail]
      cases hplace : lastExposed [':', ':'] (Nesting.top.after l.body) l.tail with
      | none =>
          -- the place would be in the body, and not right behind it
          have hlt := lt_of_lastExposed_append hplace hfound
          exact absurd hlt (Nat.lt_irrefl _)
      | some i =>
          have hi : i = 0 := by
            rw [lastExposed_append_of_some hplace] at hfound
            simpa using hfound
          rw [lastExposed_append_of_some (hafter ▸ hplace), hi]
          rfl

/-- A layout with other white space is again the layout of its text. -/
theorem Describes.respaced (hl : l.Describes clause) (h : l.Respaced l') :
    l'.Describes l'.text where
  text_eq := rfl
  spaced := h.spaced
  chain := by
    obtain ⟨hhead, hlast⟩ := h.chain.ends
    constructor
    · rw [StartsTrimmed, hhead]
      exact hl.chain.1
    · rw [EndsTrimmed, hlast]
      exact hl.chain.2
  property := by
    intro ending' hending'
    have hproperty := h.property
    rw [Option.mem_def.mp hending', Option.map_some, eq_comm, Option.map_eq_some_iff] at hproperty
    obtain ⟨ending, hending, htext⟩ := hproperty
    exact htext ▸ hl.property ending hending
  found := h.found hl.spaced hl.found

/-- Clauses with the same parts have the same path. -/
theorem Describes.toPath_respaced (hl : l.Describes clause) (h : l.Respaced l')
    {nested : Segment.Nested} {path : Path} (hpath : toPath nested clause = .ok path) :
    toPath nested l'.text = .ok path := by
  obtain ⟨hproperty, hsteps⟩ := (hl.toPath_eq_ok h.chain.not_stops).mp hpath
  have haxis : l'.axis = l.axis := by rw [axis, axis, h.opening]
  refine ((hl.respaced h).toPath_eq_ok h.chain.symm.not_stops).mpr ⟨?_, ?_⟩
  · rw [Layout.property, h.property]
    exact hproperty
  · rw [haxis]
    exact h.chain.steps_eq_ok hsteps _

/-! ### The layout of a clause that has a path -/

/-- The clause up to its property, without the white space at its end. -/
lemma exists_splitAxis {body : List Char} (h : StartsTrimmed body) :
    ∃ opening gap, body = (opening : Option (List Char)).elim [] ('>' :: ·) ++
        ((splitAxis body).2 ++ gap) ∧
      (∀ spaces ∈ opening, IsSpaces spaces) ∧ IsSpaces gap ∧ IsTrimmed (splitAxis body).2 := by
  obtain ⟨⟨hstart, hend⟩, before, gap, hbody, hbefore, hgap⟩ := trim_eq_iff.mp (rfl : trim body = _)
  obtain rfl := eq_nil_of_startsTrimmed hbefore (hbody ▸ h)
  rw [List.nil_append] at hbody
  rw [splitAxis]
  split
  · next rest heq =>
      obtain ⟨spaces, hrest, hspaces⟩ := exists_trimStart rest
      refine ⟨some spaces, gap, ?_, by simpa using hspaces, hgap, startsTrimmed_trimStart rest, ?_⟩
      · rw [Option.elim_some, List.cons_append, ← List.append_assoc, ← hrest, ← List.cons_append,
          ← heq]
        exact hbody
      · by_cases hnil : trimStart rest = []
        · simp [hnil, EndsTrimmed]
        · rw [heq, hrest, ← List.cons_append] at hend
          exact (endsTrimmed_append hnil).mp hend
  · exact ⟨none, gap, hbody, by simp, hgap, hstart, hend⟩

/-- A trimmed clause up to its property, and the text of the property. -/
lemma exists_splitProperty {source chain : List Char} {property : Option Property}
    (htrimmed : IsTrimmed source) (h : splitProperty source = .ok (chain, property)) :
    ∃ text : Option (List Char), source = chain ++ text.elim [] (':' :: ':' :: ·) ∧
      (∀ t ∈ text, EndsTrimmed t) ∧ StartsTrimmed chain ∧
        lastTopLevel [':', ':'] source = text.map fun _ => chain.length := by
  rw [splitProperty] at h
  split at h
  · next i hfound =>
      obtain ⟨_, -, h⟩ := Error.bind_eq_ok.mp h
      obtain ⟨rfl, -⟩ := Prod.mk.inj (Error.pure_eq_ok.mp h)
      obtain ⟨text, hsource⟩ := drop_of_lastExposed hfound
      have hlength : (source.take i).length = i := by
        have hlength := congrArg List.length hsource
        simp only [List.length_append, List.length_take, List.length_cons] at hlength ⊢
        omega
      refine ⟨some text, hsource, ?_, ?_, by rw [hfound, Option.map_some, hlength]⟩
      · intro t ht
        obtain rfl := Option.some.inj ht
        -- the ends of the source are those of its parts, unless a part is empty
        by_cases hnil : text = []
        · simp [hnil, EndsTrimmed]
        · have hend := htrimmed.2
          rwa [hsource, ← List.append_assoc, endsTrimmed_append hnil] at hend
      · by_cases hnil : source.take i = []
        · simp [hnil, StartsTrimmed]
        · have hstart := htrimmed.1
          rwa [hsource, startsTrimmed_append hnil] at hstart
  · next hfound =>
      obtain ⟨rfl, -⟩ := Prod.mk.inj (Except.ok.inj h)
      exact ⟨none, by simp, by simp, htrimmed.1, hfound⟩

/-- A clause that has a path has a layout, with segments and separators in its
chain. -/
theorem exists_describes {nested : Segment.Nested} {path : Path}
    (h : toPath nested clause = .ok path) : ∃ l : Layout, l.Describes clause ∧ l.Respaced l := by
  rw [toPath] at h
  split_ifs at h
  obtain ⟨htrimmed, before, behind, hclause, hbefore, hbehind⟩ :=
    trim_eq_iff.mp (rfl : trim clause = _)
  rw [pathOfTrimmed] at h
  obtain ⟨⟨body, property⟩, hproperty, h⟩ := Error.bind_eq_ok.mp h
  dsimp only at h
  split_ifs at h with hempty
  obtain ⟨ss, hsteps, -⟩ := Error.bind_eq_ok.mp h
  obtain ⟨text, hsource, htext, hbody, hfound⟩ :=
    exists_splitProperty htrimmed (Error.blame_eq_ok.mp hproperty)
  obtain ⟨opening, gap, hlead, hopening, hgap, hchain⟩ := exists_splitAxis hbody
  generalize splitAxis body = first at hempty hsteps hlead hchain
  have hrespaced : Clause.Respaced first.2 first.2 := by
    refine respaced_of_steps (by simpa using hempty) (fun c hc => ?_) hchain.2 hsteps
    refine Bool.eq_false_iff.mpr fun hblank => ?_
    simpa [isSpace_of_isBlank hblank] using hchain.1 c hc
  -- without a property the clause ends with its chain, so there is no gap
  have hgap_nil : text = none → gap = [] := by
    rintro rfl
    rw [hsource, Option.elim_none, List.append_nil, hlead, ← List.append_assoc] at htrimmed
    exact eq_nil_of_endsTrimmed hgap htrimmed.2
  let l : Layout := ⟨before, opening, first.2, text.map (gap, ·), behind⟩
  have hl_gap : l.gap = gap := by
    cases text with
    | none => exact (hgap_nil rfl).symm
    | some t => rfl
  have hl_body : l.body = body := by rw [Layout.body, hl_gap, hlead]; rfl
  have hl_source : l.source = trim clause := by
    rw [source, hl_body, hsource, tail]
    cases text <;> rfl
  have hspaced : l.IsSpaced := ⟨hbefore, hopening, hl_gap ▸ hgap, hbehind⟩
  refine ⟨l, ⟨?_, hspaced, hchain, ?_, ?_⟩, hspaced, rfl, hrespaced, rfl⟩
  · rw [Layout.text, hl_source]
    exact hclause
  · intro ending hending
    obtain ⟨t, ht, rfl⟩ := Option.map_eq_some_iff.mp hending
    exact htext t ht
  · rw [hl_source, hl_body, hfound, Option.map_map]
    rfl

end Layout

end Clause

namespace Selector

open Clause

/-- **White space between the parts of a clause does not matter.** A clause that
compiles has a layout; and whatever white space a layout of the clause is given
around it, after a leading `>`, between its segments and before its property,
the clause that comes out compiles to the same text. -/
theorem compileClause_respaced {folding : Folding} {clause xpath : String}
    (h : compileClause folding clause = .ok xpath) :
    (∃ l : Layout, l.Describes clause.toList ∧ l.Respaced l) ∧
      ∀ l l' : Layout, l.Describes clause.toList → l.Respaced l' →
        compileClause folding (String.ofList l'.text) = .ok xpath := by
  rw [compileClause, clausePath] at h
  cases hpath : toPath paths clause.toList with
  | error e => simp [hpath, Except.map] at h
  | ok path =>
      rw [hpath] at h
      refine ⟨Layout.exists_describes hpath, fun l l' hl hl' => ?_⟩
      rw [compileClause_ofList, hl.toPath_respaced hl' hpath]
      exact h

/-- A leading `>`, both kinds of separators and a property, with hardly any white
space and with a lot of it. -/
theorem compileClause_respaced_wide :
    compileClause .ascii ">ul>li b::text" = .ok "/ul/li//b/text()" ∧
      compileClause .ascii "\u2003>\n ul \t>\x0c li\r\n b  ::text\u00a0" =
        .ok "/ul/li//b/text()" := by
  let narrow : Layout :=
    ⟨[], some [], ['u', 'l', '>', 'l', 'i', ' ', 'b'], some ([], ['t', 'e', 'x', 't']), []⟩
  let wide : Layout :=
    ⟨['\u2003'], some ['\n', ' '],
      ['u', 'l', ' ', '\t', '>', '\x0c', ' ', 'l', 'i', '\r', '\n', ' ', 'b'],
      some ([' ', ' '], ['t', 'e', 'x', 't']), ['\u00a0']⟩
  have hcompile : compileClause .ascii ">ul>li b::text" = .ok "/ul/li//b/text()" := by
    decide +kernel
  have hul : Segment.readCompound (['u', 'l'] ++ (['>'] ++ ['l', 'i', ' ', 'b'])) =
      .ok ({ tag := some (.named "ul") }, ['>'] ++ ['l', 'i', ' ', 'b']) := by
    decide +kernel
  have hli : Segment.readCompound (['l', 'i'] ++ ([' '] ++ ['b'])) =
      .ok ({ tag := some (.named "li") }, [' '] ++ ['b']) := by
    decide +kernel
  have hb : Segment.readCompound ['b'] = .ok ({ tag := some (.named "b") }, []) := by
    decide +kernel
  have hchild : Combinator.Separates .child ([] ++ '>' :: []) :=
    .child (by decide) (by decide)
  have hchild' : Combinator.Separates .child ([' ', '\t'] ++ '>' :: ['\x0c', ' ']) :=
    .child (by decide) (by decide)
  have hblank : Combinator.Separates .descendant [' '] :=
    .descendant (by simp) (by decide)
  have hblank' : Combinator.Separates .descendant ['\r', '\n', ' '] :=
    .descendant (by simp) (by decide)
  have hdescribes : narrow.Describes ">ul>li b::text".toList :=
    ⟨by decide, ⟨by decide, by decide, by decide, by decide⟩, by decide, by decide, by decide⟩
  have hrespaced : narrow.Respaced wide :=
    ⟨⟨by decide, by decide, by decide, by decide⟩, rfl,
      .next hul hchild hchild' (.next hli hblank hblank' (.last hb)), rfl⟩
  exact ⟨hcompile, (compileClause_respaced hcompile).2 narrow wide hdescribes hrespaced⟩

end Selector

end SelectorPath
