/-
What queries do to the cache, and what they ask of the provider.

A query for one expression compiles it first, if it is a selector, and then calls
the provider. So the cache is done with before the provider is heard, and a selector
that fails is not heard of at all.

* `Query.Leaves`: the cache that an action leaves, and the calls it makes; with rules
  for the actions that queries are made of.
* `Query.Op.subject?`, `Query.Op.calls`: what a query is about, and how it is put to
  the provider.
* `Query.leaves_perform`, `Query.cache_run_eq`: one query, and two rows of the same.
* `Query.provider_never_sways_cache`: the main statement.
-/
import SelectorPath.Proofs.Query.Answers

namespace SelectorPath.Query

variable {ν ω ω' α β : Type}

/-! ### The cache that is left, and the calls -/

/-- From this state the action leaves the cache, and makes the calls in order. -/
def Leaves (action : Action ν α) (s : State ν) (cache : Cache)
    (calls : List (String × Option ν)) : Prop :=
  (action.run.run s).2.session.cache = cache ∧ (action.run.run s).2.calls = s.calls ++ calls

/-- The action leaves every cache as it is, and makes no calls. -/
def Idle (action : Action ν α) : Prop := ∀ s, Leaves action s s.session.cache []

namespace Leaves

variable {action : Action ν α} {next : α → Action ν β} {s : State ν} {cache : Cache}
  {calls : List (String × Option ν)}

lemma run_bind (action : Action ν α) (next : α → Action ν β) (s : State ν) :
    (action >>= next).run.run s =
      (ExceptT.bindCont next (action.run.run s).1).run (action.run.run s).2 :=
  rfl

/-- What comes after a failure is not done. -/
lemma bind_error {e : Failure} (h : Leaves action s cache calls)
    (hresult : (action.run.run s).1 = .error e) : Leaves (action >>= next) s cache calls := by
  rw [Leaves, run_bind, hresult]
  exact h

/-- If the first part succeeds, the second finds the cache that was left, and its calls
come after. -/
lemma bind_ok {a : α} {cache' : Cache} {calls' : List (String × Option ν)}
    (h : Leaves action s cache calls) (hresult : (action.run.run s).1 = .ok a)
    (hnext : ∀ t : State ν, t.session.cache = cache → Leaves (next a) t cache' calls') :
    Leaves (action >>= next) s cache' (calls ++ calls') := by
  obtain ⟨hcache, hcalls⟩ := h
  obtain ⟨hcache', hcalls'⟩ := hnext _ hcache
  rw [Leaves, run_bind, hresult]
  refine ⟨hcache', ?_⟩
  rw [← List.append_assoc, ← hcalls]
  exact hcalls'

/-- What comes after makes no difference if it is idle. -/
lemma bind_idle (h : Leaves action s cache calls) (hnext : ∀ a, Idle (next a)) :
    Leaves (action >>= next) s cache calls := by
  cases hresult : (action.run.run s).1 with
  | error e => exact h.bind_error hresult
  | ok a =>
      have hrest : ∀ t : State ν, t.session.cache = cache → Leaves (next a) t cache [] := by
        rintro t rfl
        exact hnext a t
      have hboth := h.bind_ok hresult hrest
      rwa [List.append_nil] at hboth

lemma map (h : Leaves action s cache calls) (g : α → β) : Leaves (g <$> action) s cache calls := by
  have hpure : ∀ a, Idle (pure (g a) : Action ν β) := fun _ _ => ⟨rfl, (List.append_nil _).symm⟩
  have hbind := h.bind_idle hpure
  rwa [bind_pure_comp] at hbind

end Leaves

lemma idle_pure (a : α) : Idle (pure a : Action ν α) :=
  fun s => ⟨rfl, (List.append_nil s.calls).symm⟩

lemma idle_ofExcept {ε : Type} (failure : ε → Failure) (x : Except ε α) :
    Idle (ofExcept failure x : Action ν α) := by
  cases x with
  | ok a => exact idle_pure a
  | error e => exact fun s => ⟨rfl, (List.append_nil s.calls).symm⟩

lemma idle_classifyOption (p : Provider ν ω) (node : Option ν) : Idle (classifyOption p node) := by
  cases node with
  | none => exact idle_pure none
  | some node => exact fun s => (idle_ofExcept id (p.classify node) s).map some

/-! ### What queries are about -/

/-- What a query is about: an expression in its language, taken from a node or from
the root of the document. -/
structure Subject where
  /-- The expression. -/
  text : String
  /-- Its language. -/
  language : Language
  /-- It is taken from a node. -/
  relative : Bool

/-- What a query for one expression is about. -/
def Op.subject? : Op ν → Option Subject
  | .expression text language relative => some ⟨text, language, relative⟩
  | .findNodes text language context | .find text language context
  | .findIndex text _ language context | .first text language context
  | .has text language context | .count text language context =>
    some ⟨text, language, context.isSome⟩
  | .isMatch _ selector | .closest _ selector => some ⟨selector, .css, false⟩
  | .classify _ | .findEach _ _ | .findKeyed _ _ => none

/-- The calls that a query for one expression makes once it has the XPath for it. -/
def Op.calls (p : Provider ν ω) (xpath : String) : Op ν → List (String × Option ν)
  | .findNodes _ _ context | .find _ _ context | .findIndex _ _ _ context
  | .has _ _ context | .count _ _ context => [(xpath, context)]
  | .first _ _ context => [("(" ++ xpath ++ ")[1]", context)]
  | .isMatch _ _ => [(xpath, none)]
  | .closest node _ =>
    match p.evaluate xpath none with
    | .ok (_ :: _) => [(xpath, none), ("ancestor::*", some node)]
    | .ok [] | .error _ => [(xpath, none)]
  | .expression _ _ _ | .classify _ | .findEach _ _ | .findKeyed _ _ => []

/-- The cache once an expression has been made ready for the provider. -/
def cacheAfter (c : Cache) (text : String) : Language → Cache
  | .xpath => c
  | .css => c.settleAll (Selector.asks c.answer text)

/-- The calls for what an expression has come to. -/
def callsAfter (calls : String → List (String × Option ν)) :
    Except Failure String → List (String × Option ν)
  | .ok xpath => calls xpath
  | .error _ => []

/-! ### The actions that queries are made of -/

section Queries

variable (p : Provider ν ω) (text : String) (language : Language)

/-- For a selector the cache is asked for its clauses, for an XPath expression it is not
used. -/
lemma leaves_expression (relative : Bool) (s : State ν) :
    Leaves (expression text language relative) s (cacheAfter s.session.cache text language) [] := by
  cases language with
  | xpath => exact idle_pure text s
  | css =>
      have hcompile : Leaves (withCache (Session.compile text) : Action ν _) s
          (cacheAfter s.session.cache text .css) [] :=
        ⟨(Session.run_compile text s.session).2, (List.append_nil s.calls).symm⟩
      refine hcompile.bind_idle fun result t => ?_
      exact (idle_ofExcept .selector result t).bind_idle fun compiled => idle_pure _

/-- The provider is called, whether it answers or fails. -/
lemma leaves_evaluate (xpath : String) (context : Option ν) (s : State ν) :
    Leaves (evaluate p xpath context) s s.session.cache [(xpath, context)] := by
  have hcall : Leaves (do
      withCache (Session.record (.evaluating xpath))
      modify fun s => { s with calls := s.calls ++ [(xpath, context)] } : Action ν PUnit) s
        s.session.cache [(xpath, context)] := ⟨rfl, rfl⟩
  exact hcall.bind_idle fun _ => idle_ofExcept .provider (p.evaluate xpath context)

/-- The cache is done with when an expression is ready, and there are further calls
only if it is. -/
lemma Leaves.after_expression {relative : Bool} {next : String → Action ν β}
    {calls : String → List (String × Option ν)} (s : State ν)
    (hnext : ∀ xpath t, Leaves (next xpath) t t.session.cache (calls xpath)) :
    Leaves (expression text language relative >>= next) s
      (cacheAfter s.session.cache text language)
      (callsAfter calls (expressionFor s.session.cache.answer text language relative)) := by
  have hready := leaves_expression text language relative s
  have hresult := (answers_expression text language relative s rfl).1
  cases hxpath : expressionFor s.session.cache.answer text language relative with
  | error e => exact hready.bind_error (hresult.trans hxpath)
  | ok xpath =>
      refine hready.bind_ok (hresult.trans hxpath) fun t ht => ?_
      rw [← ht]
      exact hnext xpath t

/-- If there is no expression, the provider is not called. -/
lemma leaves_findNodes (context : Option ν) (s : State ν) :
    Leaves (findNodes p text language context) s (cacheAfter s.session.cache text language)
      (callsAfter (fun xpath => [(xpath, context)])
        (expressionFor s.session.cache.answer text language context.isSome)) :=
  Leaves.after_expression text language s fun xpath => leaves_evaluate p xpath context

variable [DecidableEq ν]

/-- The ancestors are asked for if there are nodes to look for among them. -/
lemma leaves_closest (node : ν) (s : State ν) :
    Leaves (closest p node text) s (cacheAfter s.session.cache text .css)
      (callsAfter (fun xpath => Op.calls p xpath (.closest node text))
        (expressionFor s.session.cache.answer text .css false)) := by
  rw [closest, findNodes, bind_assoc]
  refine Leaves.after_expression text .css s fun xpath t => ?_
  have hcall := leaves_evaluate p xpath none t
  have hresult := (answers_evaluate (f := t.session.cache.answer) p xpath none t rfl).1
  rw [Op.calls]
  cases hnodes : p.evaluate xpath none with
  | error message =>
      rw [hnodes] at hresult
      exact hcall.bind_error hresult
  | ok nodes =>
      rw [hnodes] at hresult
      cases nodes with
      | nil => exact hcall.bind_ok hresult fun t' ht => ht ▸ idle_pure none t'
      | cons first more =>
          refine hcall.bind_ok hresult fun t' ht => ?_
          rw [← ht]
          exact (leaves_evaluate p "ancestor::*" (some node) t').bind_idle fun _ => idle_pure _

/-- One query. The provider is called for what the expression has come to, and the
cache does not depend on what it says. -/
theorem leaves_perform {op : Op ν} {subject : Subject} (h : op.subject? = some subject)
    (s : State ν) :
    Leaves (perform p op) s (cacheAfter s.session.cache subject.text subject.language)
      (callsAfter (Op.calls p · op)
        (expressionFor s.session.cache.answer subject.text subject.language
          subject.relative)) := by
  cases op with
  | expression text language relative =>
      obtain rfl := Option.some.inj h
      have hready := leaves_expression text language relative s
      cases expressionFor s.session.cache.answer text language relative <;>
        exact hready.map Reply.text
  | findNodes text language context =>
      obtain rfl := Option.some.inj h
      exact (leaves_findNodes p text language context s).map _
  | find text language context =>
      obtain rfl := Option.some.inj h
      exact ((leaves_findNodes p text language context s).bind_idle fun nodes =>
        idle_ofExcept id (nodes.mapM p.classify)).map _
  | findIndex text index language context =>
      obtain rfl := Option.some.inj h
      exact ((leaves_findNodes p text language context s).bind_idle fun nodes =>
        idle_classifyOption p nodes[index]?).map _
  | first text language context =>
      obtain rfl := Option.some.inj h
      -- another expression than the selector's is evaluated, so `leaves_findNodes` does not apply
      exact (Leaves.after_expression text language s fun xpath t =>
        (leaves_evaluate p ("(" ++ xpath ++ ")[1]") context t).bind_idle fun nodes =>
          idle_classifyOption p nodes.head?).map _
  | has text language context =>
      obtain rfl := Option.some.inj h
      exact ((leaves_findNodes p text language context s).bind_idle fun nodes =>
        idle_pure _).map _
  | count text language context =>
      obtain rfl := Option.some.inj h
      exact ((leaves_findNodes p text language context s).bind_idle fun nodes =>
        idle_pure _).map _
  | isMatch node selector =>
      obtain rfl := Option.some.inj h
      exact ((leaves_findNodes p selector .css none s).bind_idle fun nodes => idle_pure _).map _
  | closest node selector =>
      obtain rfl := Option.some.inj h
      exact (leaves_closest p selector node s).map _
  | classify | findEach | findKeyed => cases h

/-! ### Queries one by one, and in a row -/

/-- What a query leaves of the cache depends on the text it is about, and not on the
provider. -/
lemma cache_step {op : Op ν} {subject : Subject} (h : op.subject? = some subject) (s : State ν) :
    (step p s op).2.session.cache =
      cacheAfter s.session.cache subject.text subject.language :=
  (leaves_perform p h ⟨{ s.session with log := [] }, []⟩).1

/-- What the provider is called with depends on what the text compiles to, and for the
second call of `closest` on whether nodes were found. -/
lemma calls_step {op : Op ν} {subject : Subject} (h : op.subject? = some subject) (s : State ν) :
    (step p s op).2.calls = callsAfter (Op.calls p · op)
      (expressionFor s.session.cache.answer subject.text subject.language subject.relative) :=
  (leaves_perform p h ⟨{ s.session with log := [] }, []⟩).2

/-- Two rows of the same queries leave equal caches all the way, if they begin with
equal caches. -/
lemma cache_run_eq (q : Provider ν ω') {ops : List (Op ν)} (h : ∀ op ∈ ops, op.subject?.isSome)
    {s t : State ν} (hcache : s.session.cache = t.session.cache) :
    (run p s ops).map (·.2.session.cache) = (run q t ops).map (·.2.session.cache) := by
  induction ops generalizing s t with
  | nil => rfl
  | cons op ops ih =>
      obtain ⟨subject, hsubject⟩ := Option.isSome_iff_exists.mp (h op List.mem_cons_self)
      have hstep : (step p s op).2.session.cache = (step q t op).2.session.cache := by
        rw [cache_step p hsubject, cache_step q hsubject, hcache]
      have hrest := ih (fun op' hop' => h op' (List.mem_cons_of_mem op hop')) hstep
      rw [run, run, List.map_cons, List.map_cons, hstep, hrest]

end Queries

/-- **The provider never sways the cache, and what fails to compile never reaches the
provider.** Whatever two providers answer, the same queries leave equal caches, one
after the other: an XPath expression leaves the cache as it was, and a selector leaves
it as compiling does. A selector that fails is not put to the provider. Every other
query puts its expression to it as `Op.calls` says: an XPath expression as it is, and a
selector in its form for the root or for a node. -/
theorem provider_never_sways_cache [DecidableEq ν] (p : Provider ν ω) (q : Provider ν ω')
    (s : State ν) :
    (∀ ops : List (Op ν), (∀ op ∈ ops, op.subject?.isSome) →
      (run p s ops).map (·.2.session.cache) = (run q s ops).map (·.2.session.cache)) ∧
    ∀ (op : Op ν) (text : String) (relative : Bool),
      let compiling := (Session.compile text).run s.session
      let after := (step p s op).2
      (op.subject? = some ⟨text, .xpath, relative⟩ →
        after.session.cache = s.session.cache ∧ after.calls = op.calls p text) ∧
      (op.subject? = some ⟨text, .css, relative⟩ →
        after.session.cache = compiling.2.cache ∧
        (∀ e, compiling.1 = .error e → after.calls = []) ∧
        ∀ compiled, compiling.1 = .ok compiled → after.calls =
          op.calls p (if relative then compiled.relative else compiled.xpath)) := by
  refine ⟨fun ops hops => cache_run_eq p q hops rfl, fun op text relative => ⟨?_, ?_⟩⟩
  · intro hsubject
    exact ⟨cache_step p hsubject s, calls_step p hsubject s⟩
  · intro hsubject
    obtain ⟨hresult, hcache⟩ := Session.run_compile text s.session
    refine ⟨(cache_step p hsubject s).trans hcache.symm, fun e he => ?_, fun compiled hok => ?_⟩
    · rw [calls_step p hsubject, expressionFor, ← hresult, he]
      rfl
    · rw [calls_step p hsubject, expressionFor, ← hresult, hok]
      rfl

/-- A provider that finds two nodes for every expression, and one that always fails. -/
def opposed : Bool → Provider Nat Nat
  | true => ⟨fun _ _ => .ok [1, 2], fun _ => .element, fun _ => "", id⟩
  | false => ⟨fun _ _ => .error "lost", fun _ => .other "comment", fun _ => "", id⟩

/-- Two providers that agree on nothing. They are asked for ancestors, for a union of
which the second clause is malformed, for an expression that is taken as it is, and for a
clause that is in the cache by then. -/
theorem provider_never_sways_cache_opposed :
    let s : State Nat := ⟨⟨Cache.empty .ascii, true, []⟩, []⟩
    let ops : List (Op Nat) := [.closest 5 "p", .find "p, q[" .css (some 2),
      .first "//q" .xpath (some 2), .count "p" .css none]
    (run (opposed true) s ops).map (·.2.session.cache) =
        (run (opposed false) s ops).map (·.2.session.cache) ∧
      (step (opposed true) s (.closest 5 "p")).2.calls =
        [("//p", none), ("ancestor::*", some 5)] ∧
      (step (opposed false) s (.closest 5 "p")).2.calls = [("//p", none)] ∧
      (step (opposed true) s (.find "p, q[" .css (some 2))).2.calls = [] ∧
      (step (opposed true) s (.has "p, q" .css (some 2))).2.calls = [(".//p|.//q", some 2)] ∧
      (step (opposed true) s (.first "//q" .xpath (some 2))).2.calls =
        [("(//q)[1]", some 2)] := by
  intro s ops
  obtain ⟨hrun, hfound⟩ := provider_never_sways_cache (opposed true) (opposed false) s
  obtain ⟨-, hlost⟩ := provider_never_sways_cache (opposed false) (opposed true) s
  have hp : ((Session.compile "p").run s.session).1 = .ok ⟨["//p"]⟩ := by decide +kernel
  have hpq : ((Session.compile "p, q").run s.session).1 = .ok ⟨["//p", "//q"]⟩ := by
    decide +kernel
  have hopen : ((Session.compile "p, q[").run s.session).1 =
      .error (.malformed "q[" .openBracket) := by decide +kernel
  exact ⟨hrun ops (by decide), ((hfound (.closest 5 "p") "p" false).2 rfl).2.2 _ hp,
    ((hlost (.closest 5 "p") "p" false).2 rfl).2.2 _ hp,
    ((hfound (.find "p, q[" .css (some 2)) "p, q[" true).2 rfl).2.1 _ hopen,
    ((hfound (.has "p, q" .css (some 2)) "p, q" true).2 rfl).2.2 _ hpq,
    ((hfound (.first "//q" .xpath (some 2)) "//q" true).1 rfl).2⟩

end SelectorPath.Query
