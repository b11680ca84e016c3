/-
What a cache tells, and what it holds afterwards.

Of a key a cache tells the form that is filed under it or else what it compiles
to. A form that has been told is filed, which changes no answer, also not to
other keys. So all that compiling through a cache does can be said in terms of
the answers at the beginning.

* `Cache.answer`, `Cache.settle`: the answer, and the cache after it;
  `Cache.settle_cases` is all that an answer can do.
* `Cache.answer_settleAll`, `Cache.filed_settleAll_iff`, `Cache.count_settleAll`:
  after any number of answers.
* `Error.accepted`, `Error.reached`: a list before its first failure, and
  with it.
* `Selector.resolve`, `Selector.asks`: what a selector compiles to if the
  answers are given, and the clauses that it needs to be answered.
* `Session.run_compile`, `Session.run_mapM_compile`: compiling a selector through a
  cache, and several.
* `Session.compile_stops_at_failure`: what a selector that fails leaves behind.
-/
import SelectorPath.Proofs.Cache.Coherence
import SelectorPath.Proofs.Cache.Interleaving

namespace SelectorPath

open XPath
open Entries (Extends)

/-! ### Up to the first failure -/

namespace Error

variable {ε α β : Type}

/-- The elements before the first that fails. -/
def accepted (f : α → Except ε β) (xs : List α) : List α := xs.takeWhile fun x => (f x).isOk

/-- The elements up to the first that fails, which is one of them. -/
def reached (f : α → Except ε β) (xs : List α) : List α := xs.take ((accepted f xs).length + 1)

variable {f : α → Except ε β} {x : α}

lemma isOk_of_eq_ok {y : β} (h : f x = .ok y) : (f x).isOk := by
  rw [h]
  rfl

lemma not_isOk_of_eq_error {e : ε} (h : f x = .error e) : ¬(f x).isOk := by
  rw [h]
  exact Bool.false_ne_true

lemma accepted_cons_ok {y : β} (h : f x = .ok y) (xs : List α) :
    accepted f (x :: xs) = x :: accepted f xs :=
  List.takeWhile_cons_of_pos (isOk_of_eq_ok h)

/-- Nothing is accepted from the first failure on. -/
lemma accepted_cons_error {e : ε} (h : f x = .error e) (xs : List α) :
    accepted f (x :: xs) = [] :=
  List.takeWhile_cons_of_neg (not_isOk_of_eq_error h)

lemma reached_cons_ok {y : β} (h : f x = .ok y) (xs : List α) :
    reached f (x :: xs) = x :: reached f xs := by
  rw [reached, accepted_cons_ok h, List.length_cons, List.take_succ_cons, reached]

/-- The first failure is the last element that is reached. -/
lemma reached_cons_error {e : ε} (h : f x = .error e) (xs : List α) :
    reached f (x :: xs) = [x] := by
  rw [reached, accepted_cons_error h, List.length_nil, List.take_succ_cons, List.take_zero]

/-- A list without failures is taken whole. -/
lemma reached_of_mapM {xs : List α} {ys : List β} (h : xs.mapM f = .ok ys) :
    reached f xs = xs := by
  have hall : List.Forall₂ (fun x y => f x = .ok y) xs ys := mapM_eq_ok.mp h
  clear h
  induction hall with
  | nil => rfl
  | cons hx _ ih => rw [reached_cons_ok hx, ih]

/-- An element is accepted exactly if it is reached and does not fail. -/
lemma mem_accepted_iff {xs : List α} : x ∈ accepted f xs ↔ x ∈ reached f xs ∧ (f x).isOk := by
  induction xs with
  | nil => simp [accepted, reached]
  | cons x' xs ih =>
      cases hx' : f x' with
      | error e =>
          have hne : (f x).isOk → x ≠ x' := by
            rintro hok rfl
            exact not_isOk_of_eq_error hx' hok
          rw [accepted_cons_error hx', reached_cons_error hx', List.mem_singleton]
          exact ⟨fun h => absurd h List.not_mem_nil, fun h => absurd h.1 (hne h.2)⟩
      | ok y =>
          have hok : x = x' → (f x).isOk := by
            rintro rfl
            exact isOk_of_eq_ok hx'
          rw [accepted_cons_ok hx', reached_cons_ok hx', List.mem_cons, List.mem_cons, ih,
            or_and_right, and_iff_left_of_imp hok]

/-- A list with a first failure is taken up to it, and the failure is the
outcome. -/
lemma of_first_failure {before : List α} {e : ε} (hbefore : ∀ a ∈ before, (f a).isOk)
    (hx : f x = .error e) (later : List α) :
    reached f (before ++ x :: later) = before ++ [x] ∧
      (before ++ x :: later).mapM f = .error e := by
  induction before with
  | nil =>
      rw [List.nil_append, reached_cons_error hx, List.mapM_cons, hx]
      exact ⟨rfl, rfl⟩
  | cons a before ih =>
      obtain ⟨hreached, hmapM⟩ := ih fun a' ha' => hbefore a' (List.mem_cons_of_mem a ha')
      cases ha : f a with
      | error e' => exact absurd (hbefore a List.mem_cons_self) (not_isOk_of_eq_error ha)
      | ok y =>
          rw [List.cons_append, reached_cons_ok ha, hreached, List.mapM_cons, ha, hmapM]
          exact ⟨rfl, rfl⟩

end Error

/-! ### One answer -/

namespace Cache

/-- What a cache tells of a key: the form that is filed under it, or else what
it compiles to. -/
def answer (c : Cache) (k : String) : Except Error String :=
  match c.entries[k]? with
  | some xpath => .ok xpath
  | none => Selector.compileClause c.folding k

/-- The cache after its answer about a key: a form that it told is filed. -/
def settle (c : Cache) (k : String) : Cache :=
  match c.answer k with
  | .ok xpath => ((c.lookup k).2.publish k xpath).2
  | .error _ => (c.lookup k).2

lemma answer_of_filed {c : Cache} {k xpath : String} (h : c.entries[k]? = some xpath) :
    c.answer k = .ok xpath := by
  rw [answer, h]

lemma answer_of_missing {c : Cache} {k : String} (h : c.entries[k]? = none) :
    c.answer k = Selector.compileClause c.folding k := by
  rw [answer, h]

/-- Two caches tell the same if one holds what the other holds, and otherwise
only what the other would tell. -/
lemma answer_eq {c c' : Cache} (hfolding : c'.folding = c.folding)
    (hold : Extends c'.entries c.entries)
    (hnew : ∀ k xpath : String, c'.entries[k]? = some xpath → c.answer k = .ok xpath) :
    c'.answer = c.answer := by
  funext k
  cases hfiled : c'.entries[k]? with
  | some xpath => rw [answer_of_filed hfiled, hnew k xpath hfiled]
  | none =>
      have hmiss : c.entries[k]? = none := by
        refine Option.eq_none_iff_forall_ne_some.mpr fun xpath h => ?_
        rw [hold k xpath h] at hfiled
        cases hfiled
      rw [answer_of_missing hfiled, answer_of_missing hmiss, hfolding]

/-- Looking something up changes nothing that is told. -/
lemma answer_lookup (c : Cache) (k : String) : (c.lookup k).2.answer = c.answer := by
  funext k'
  rw [answer, answer, entries_lookup, folding_lookup]

/-- What is told when a form is published is what the cache tells. -/
lemma answer_eq_fst_publish {c : Cache} {k xpath : String}
    (h : Selector.compileClause c.folding k = .ok xpath) :
    c.answer k = .ok (c.publish k xpath).1 := by
  rw [fst_publish]
  cases hfiled : c.entries[k]? with
  | some filed => rw [answer_of_filed hfiled, Option.getD_some]
  | none => rw [answer_of_missing hfiled, h, Option.getD_none]

/-- Publishing what a clause compiles to changes nothing that is told, of this clause or
of others. -/
lemma answer_publish {c : Cache} {k xpath : String}
    (h : Selector.compileClause c.folding k = .ok xpath) :
    (c.publish k xpath).2.answer = c.answer := by
  refine answer_eq (folding_publish c k xpath) (extends_publish c k xpath) fun k' xpath' hnew => ?_
  rw [getElem?_publish] at hnew
  split_ifs at hnew with heq
  · rw [heq, answer_eq_fst_publish h, fst_publish, Option.some.inj hnew]
  · exact answer_of_filed hnew

/-- What is filed is what is told of the keys that are there. -/
lemma filed_iff_mem {c : Cache} {k xpath : String} :
    c.entries[k]? = some xpath ↔ k ∈ c.entries ∧ c.answer k = .ok xpath := by
  rw [Std.ExtTreeMap.mem_iff_isSome_getElem?]
  cases hfiled : c.entries[k]? with
  | some filed => simp [answer_of_filed hfiled]
  | none => simp

/-- There is a form to tell if one is filed or the key compiles. -/
lemma isOk_answer {c : Cache} {k : String} (h : c.entries[k]?.isSome ∨
    ∃ xpath, Selector.compileClause c.folding k = .ok xpath) : (c.answer k).isOk := by
  cases hfiled : c.entries[k]? with
  | some xpath => exact Error.isOk_of_eq_ok (answer_of_filed hfiled)
  | none =>
      rcases h with hsome | ⟨xpath, hxpath⟩
      · simp [hfiled] at hsome
      · exact Error.isOk_of_eq_ok ((answer_of_missing hfiled).trans hxpath)

/-- All that an answer can do. A form that was there is counted as found, one
that was not is filed and counted as missed, and a failure is only counted. -/
lemma settle_cases (c : Cache) (k : String) :
    (∃ xpath, c.entries[k]? = some xpath ∧ c.answer k = .ok xpath ∧
      c.settle k = { c with hits := c.hits + 1 }) ∨
    (∃ xpath, c.entries[k]? = none ∧ c.answer k = .ok xpath ∧
      c.settle k = { c with entries := c.entries.insert k xpath, misses := c.misses + 1 }) ∨
    (∃ e, c.entries[k]? = none ∧ c.answer k = .error e ∧
      c.settle k = { c with misses := c.misses + 1 }) := by
  cases hfiled : c.entries[k]? with
  | some xpath =>
      refine .inl ⟨xpath, rfl, answer_of_filed hfiled, ?_⟩
      simp only [settle, answer_of_filed hfiled, publish, lookup, hfiled]
  | none =>
      have hsettle : c.settle k = match c.answer k with
          | .ok xpath => { c with entries := c.entries.insert k xpath, misses := c.misses + 1 }
          | .error _ => { c with misses := c.misses + 1 } := by
        simp only [settle, publish, lookup, hfiled]
      cases hanswer : c.answer k with
      | ok xpath => exact .inr (.inl ⟨xpath, rfl, rfl, by rw [hsettle, hanswer]⟩)
      | error e => exact .inr (.inr ⟨e, rfl, rfl, by rw [hsettle, hanswer]⟩)

@[simp] lemma folding_settle (c : Cache) (k : String) : (c.settle k).folding = c.folding := by
  obtain ⟨_, -, -, h⟩ | ⟨_, -, -, h⟩ | ⟨_, -, -, h⟩ := c.settle_cases k <;> rw [h]

/-- Every answer is counted. -/
lemma count_settle (c : Cache) (k : String) :
    (c.settle k).hits + (c.settle k).misses = c.hits + c.misses + 1 := by
  obtain ⟨_, -, -, h⟩ | ⟨_, -, -, h⟩ | ⟨_, -, -, h⟩ := c.settle_cases k
  all_goals
    simp only [h]
    omega

/-- What is filed afterwards was filed before or has just been told. -/
lemma filed_settle_iff (c : Cache) (k k' xpath : String) :
    (c.settle k).entries[k']? = some xpath ↔
      c.entries[k']? = some xpath ∨ k' = k ∧ c.answer k = .ok xpath := by
  obtain ⟨told, hfiled, hanswer, h⟩ | ⟨told, hmiss, hanswer, h⟩ | ⟨e, -, hanswer, h⟩ :=
    c.settle_cases k
  · rw [h, hanswer, or_iff_left_of_imp]
    rintro ⟨rfl, heq⟩
    rw [hfiled, Except.ok.inj heq]
  · rw [h, hanswer, Except.ok.injEq, Std.ExtTreeMap.getElem?_insert]
    by_cases heq : k' = k
    · simp [heq, hmiss]
    · simp [heq, Ne.symm heq]
  · simp [h, hanswer]

/-- Telling something changes nothing that is told. -/
@[simp] lemma answer_settle (c : Cache) (k : String) : (c.settle k).answer = c.answer := by
  refine answer_eq (folding_settle c k) (fun k' xpath h => ?_) fun k' xpath h => ?_
  · exact (c.filed_settle_iff k k' xpath).mpr (.inl h)
  · rcases (c.filed_settle_iff k k' xpath).mp h with hold | ⟨rfl, htold⟩
    · exact answer_of_filed hold
    · exact htold

/-! ### Several answers -/

/-- The cache after its answers about some keys, one after the other. -/
def settleAll (c : Cache) (ks : List String) : Cache := ks.foldl settle c

@[simp] lemma settleAll_nil (c : Cache) : c.settleAll [] = c := rfl

@[simp] lemma settleAll_cons (c : Cache) (k : String) (ks : List String) :
    c.settleAll (k :: ks) = (c.settle k).settleAll ks := rfl

lemma settleAll_append (c : Cache) (ks ks' : List String) :
    c.settleAll (ks ++ ks') = (c.settleAll ks).settleAll ks' := List.foldl_append

/-- Any number of answers change nothing that is told. -/
@[simp] lemma answer_settleAll (c : Cache) (ks : List String) :
    (c.settleAll ks).answer = c.answer := by
  induction ks generalizing c with
  | nil => rfl
  | cons k ks ih => rw [settleAll_cons, ih, answer_settle]

/-- All of them are counted, as found or as missed. -/
lemma count_settleAll (c : Cache) (ks : List String) :
    (c.settleAll ks).hits + (c.settleAll ks).misses = c.hits + c.misses + ks.length := by
  induction ks generalizing c with
  | nil => rfl
  | cons k ks ih =>
      rw [settleAll_cons, ih, count_settle, List.length_cons]
      omega

/-- The contents after some answers: what was there, and the forms told. -/
lemma filed_settleAll_iff (c : Cache) (ks : List String) (k xpath : String) :
    (c.settleAll ks).entries[k]? = some xpath ↔
      c.entries[k]? = some xpath ∨ k ∈ ks ∧ c.answer k = .ok xpath := by
  induction ks generalizing c with
  | nil => simp
  | cons k' ks ih =>
      have hk' : k = k' ∧ c.answer k' = .ok xpath ↔ k = k' ∧ c.answer k = .ok xpath :=
        and_congr_right fun heq => by rw [heq]
      rw [settleAll_cons, ih, filed_settle_iff, answer_settle, hk', List.mem_cons, or_and_right,
        or_assoc]

end Cache

/-! ### Selectors, given the answers -/

namespace Selector

/-- The selector, clause by clause, with `f` to say what a clause compiles to. -/
def resolve (f : String → Except Error String) (selector : String) : Except Error Compiled := do
  let clauses ← splitClauses selector
  (clauses.mapM f).map Compiled.mk

/-- The clauses of the selector that have to be answered, up to the first that
fails. -/
def asks (f : String → Except Error String) (selector : String) : List String :=
  match splitClauses selector with
  | .error _ => []
  | .ok clauses => Error.reached f clauses

variable {f : String → Except Error String} {selector : String}

lemma resolve_of_error {e : Error} (h : splitClauses selector = .error e) :
    resolve f selector = .error e := by
  rw [resolve, h]
  rfl

lemma resolve_of_ok {clauses : List String} (h : splitClauses selector = .ok clauses) :
    resolve f selector = (clauses.mapM f).map Compiled.mk := by
  rw [resolve, h]
  rfl

lemma asks_of_error {e : Error} (h : splitClauses selector = .error e) :
    asks f selector = [] := by
  rw [asks, h]

lemma asks_of_ok {clauses : List String} (h : splitClauses selector = .ok clauses) :
    asks f selector = Error.reached f clauses := by
  rw [asks, h]

/-- A clause with a form is asked for exactly if it comes before the first that
fails. -/
lemma mem_asks_iff {k : String} (hok : (f k).isOk) : k ∈ asks f selector ↔
    ∃ clauses, splitClauses selector = .ok clauses ∧ k ∈ Error.accepted f clauses := by
  cases hsplit : splitClauses selector with
  | error e => simp [asks_of_error hsplit]
  | ok clauses => simp [asks_of_ok hsplit, Error.mem_accepted_iff, hok]

end Selector

/-! ### Compiling through a cache -/

namespace Session

/-- Compiling a clause through a cache is asking for its key. -/
lemma run_compileClause (clause : String) (s : Session) :
    ((compileClause clause).run s).1 = s.cache.answer (Cache.key clause) ∧
      ((compileClause clause).run s).2.cache = s.cache.settle (Cache.key clause) := by
  rw [compileClause, Cache.settle]
  cases hfiled : s.cache.entries[Cache.key clause]? with
  | some xpath =>
      obtain ⟨hresult, hafter⟩ := compileClauseAmid_of_hit (pure ()) hfiled
      rw [hresult, hafter, Cache.answer_of_filed hfiled]
      -- what is published where a form is filed already is lost
      simp only [Cache.publish, Cache.entries_lookup, hfiled, and_self]
  | none =>
      rw [Cache.answer_of_missing hfiled]
      cases hcompile : Selector.compileClause s.cache.folding (Cache.key clause) with
      | error e => exact compileClauseAmid_of_error (pure ()) hfiled hcompile
      | ok xpath =>
          obtain ⟨t, ht, hresult, hafter⟩ := compileClauseAmid_of_ok (pure ()) hfiled hcompile
          rw [hresult, hafter, Cache.fst_publish, ← ht]
          refine ⟨?_, rfl⟩
          have hmiss : t.cache.entries[Cache.key clause]? = none := by
            rw [ht, Cache.entries_lookup, hfiled]
          exact congrArg (fun form : Option String => Except.ok (form.getD xpath)) hmiss

/-- Several clauses are answered up to the first failure. Since no answer changes another,
all of them are those at the beginning. -/
lemma run_compileClauses (clauses : List String) (s : Session) :
    ((compileClauses clauses).run s).1 = (clauses.map Cache.key).mapM s.cache.answer ∧
      ((compileClauses clauses).run s).2.cache =
        s.cache.settleAll (Error.reached s.cache.answer (clauses.map Cache.key)) := by
  induction clauses generalizing s with
  | nil => exact ⟨rfl, rfl⟩
  | cons clause clauses ih =>
      obtain ⟨hanswer, hcache⟩ := run_compileClause clause s
      rw [compileClauses, run_bind, List.map_cons, List.mapM_cons, hanswer]
      cases hfirst : s.cache.answer (Cache.key clause) with
      | error e =>
          rw [Error.reached_cons_error hfirst]
          exact ⟨rfl, hcache⟩
      | ok xpath =>
          -- the answers are the same after the first one
          obtain ⟨hmore, hafter⟩ := ih ((compileClause clause).run s).2
          rw [hcache, Cache.answer_settle] at hmore hafter
          rw [Error.reached_cons_ok hfirst, Cache.settleAll_cons, ← hafter]
          refine ⟨?_, rfl⟩
          show ((compileClauses clauses).run ((compileClause clause).run s).2).1.map _ = _
          rw [hmore]
          cases (clauses.map Cache.key).mapM s.cache.answer <;> rfl

/-- Compiling a selector through a cache is asking for its clauses, up to the
first that fails. -/
theorem run_compile (selector : String) (s : Session) :
    ((compile selector).run s).1 = Selector.resolve s.cache.answer selector ∧
      ((compile selector).run s).2.cache =
        s.cache.settleAll (Selector.asks s.cache.answer selector) := by
  rw [compile]
  cases hsplit : Selector.splitClauses selector with
  | error e =>
      rw [Selector.resolve_of_error hsplit, Selector.asks_of_error hsplit]
      exact ⟨rfl, rfl⟩
  | ok clauses =>
      obtain ⟨hresults, hcache⟩ := run_compileClauses clauses s
      rw [Cache.map_key_of_splitClauses hsplit] at hresults hcache
      rw [Selector.resolve_of_ok hsplit, Selector.asks_of_ok hsplit, ← hresults]
      exact ⟨rfl, hcache⟩

lemma step_compile (selector : String) (s : Session) :
    (s.step (.compile selector)).1 = .compiled (Selector.resolve s.cache.answer selector) ∧
      (s.step (.compile selector)).2.cache =
        s.cache.settleAll (Selector.asks s.cache.answer selector) := by
  obtain ⟨hresult, hcache⟩ := run_compile selector { s with log := [] }
  exact ⟨congrArg Reply.compiled hresult, hcache⟩

/-- Compiling selectors one after the other is asking for their clauses. -/
lemma run_mapM_compile (selectors : List String) (s : Session) :
    ((selectors.mapM compile).run s).1 = selectors.map (Selector.resolve s.cache.answer) ∧
      ((selectors.mapM compile).run s).2.cache =
        s.cache.settleAll (selectors.flatMap (Selector.asks s.cache.answer)) := by
  induction selectors generalizing s with
  | nil => exact ⟨rfl, rfl⟩
  | cons selector selectors ih =>
      obtain ⟨hresult, hcache⟩ := run_compile selector s
      obtain ⟨hresults, hafter⟩ := ih ((compile selector).run s).2
      rw [hcache, Cache.answer_settleAll] at hresults hafter
      rw [List.mapM_cons, List.map_cons, List.flatMap_cons, Cache.settleAll_append, ← hresult,
        ← hresults, ← hafter]
      exact ⟨rfl, rfl⟩

/-- Several selectors, one after the other: each is answered as it would be at the
beginning. -/
lemma step_warm (selectors : List String) (s : Session) :
    (s.step (.warm selectors)).1 = .batch (selectors.map (Selector.resolve s.cache.answer)) ∧
      (s.step (.warm selectors)).2.cache =
        s.cache.settleAll (selectors.flatMap (Selector.asks s.cache.answer)) := by
  obtain ⟨hresults, hcache⟩ := run_mapM_compile selectors { s with log := [] }
  exact ⟨congrArg Reply.batch hresults, hcache⟩

/-! ### A selector that fails -/

/-- **What a failing selector leaves behind.** A selector that cannot be taken
apart into clauses changes nothing. Otherwise let a clause be the first that is
neither filed nor can be compiled. Then its error is the answer; what was filed
stays as it is; the clauses before it, where they were not filed, are filed now
with what they compile to, and nothing else is; and the clauses up to it have
been counted. -/
theorem compile_stops_at_failure (s : Session) (selector : String) :
    let reply := (s.step (.compile selector)).1
    let after := (s.step (.compile selector)).2.cache
    (∀ e, Selector.splitClauses selector = .error e →
      reply = .compiled (.error e) ∧ after = s.cache) ∧
    ∀ (before : List String) clause later e,
      Selector.splitClauses selector = .ok (before ++ clause :: later) →
      (∀ c ∈ before, (s.cache.find? c).isSome ∨
        ∃ xpath, Selector.compileClause s.cache.folding c = .ok xpath) →
      s.cache.find? clause = none →
      Selector.compileClause s.cache.folding clause = .error e →
        reply = .compiled (.error e) ∧
        (∀ k xpath : String,
          s.cache.entries[k]? = some xpath → after.entries[k]? = some xpath) ∧
        (∀ k xpath : String, s.cache.entries[k]? = none →
          (after.entries[k]? = some xpath ↔
            k ∈ before ∧ Selector.compileClause s.cache.folding k = .ok xpath)) ∧
        (∀ k ∈ clause :: later, s.cache.entries[k]? = none → k ∉ before →
          after.entries[k]? = none) ∧
        after.hits + after.misses = s.cache.hits + s.cache.misses + (before.length + 1) := by
  intro reply after
  obtain ⟨hreply, hafter⟩ : reply = _ ∧ after = _ := step_compile selector s
  refine ⟨fun e hsplit => ?_, fun before clause later e hsplit hbefore hmiss herror => ?_⟩
  · rw [hreply, hafter, Selector.resolve_of_error hsplit, Selector.asks_of_error hsplit]
    exact ⟨rfl, rfl⟩
  · have hfind : ∀ c ∈ before ++ clause :: later, s.cache.find? c = s.cache.entries[c]? :=
      fun c hc => congrArg (s.cache.entries[·]?) (Cache.key_of_mem_splitClauses hsplit hc)
    have hok : ∀ c ∈ before, (s.cache.answer c).isOk := by
      intro c hc
      have hc' := hbefore c hc
      rw [hfind c (List.mem_append_left _ hc)] at hc'
      exact Cache.isOk_answer hc'
    have hfail : s.cache.answer clause = .error e := by
      rw [hfind clause (by simp)] at hmiss
      rw [Cache.answer_of_missing hmiss, herror]
    obtain ⟨hreached, hmapM⟩ := Error.of_first_failure hok hfail later
    rw [Selector.asks_of_ok hsplit, hreached] at hafter
    -- the clause that failed was asked for as well, but has no form
    have hfiled : ∀ k xpath : String, after.entries[k]? = some xpath ↔
        s.cache.entries[k]? = some xpath ∨ k ∈ before ∧ s.cache.answer k = .ok xpath := by
      intro k xpath
      have hne : s.cache.answer k = .ok xpath → k ≠ clause := by
        rintro h rfl
        rw [hfail] at h
        cases h
      rw [hafter, Cache.filed_settleAll_iff, List.mem_append, List.mem_singleton]
      exact or_congr Iff.rfl (and_congr_left fun htold => or_iff_left (hne htold))
    refine ⟨?_, ?_, ?_, ?_, ?_⟩
    · rw [hreply, Selector.resolve_of_ok hsplit, hmapM]
      rfl
    · intro k xpath h
      exact (hfiled k xpath).mpr (.inl h)
    · intro k xpath h
      rw [hfiled, h, Cache.answer_of_missing h]
      simp
    · intro k _ h hk
      refine Option.eq_none_iff_forall_ne_some.mpr fun xpath hnew => ?_
      rcases (hfiled k xpath).mp hnew with hold | ⟨hmem, -⟩
      · rw [h] at hold
        cases hold
      · exact hk hmem
    · rw [hafter, Cache.count_settleAll, List.length_append, List.length_singleton]

/-- The first clause could not be compiled but has a form of its own filed, the
second comes twice, and the third fails. -/
theorem compile_stops_at_failure_midway :
    let c : Cache := ⟨.ascii, Cache.entriesOf [("q:nope", "//other")], 2, 5⟩
    let after := (Session.step ⟨c, true, []⟩ (.compile "q:nope, p,p , r:nope, p, s")).2.cache
    Selector.splitClauses "q:nope, p,p , r:nope, p, s" =
        .ok (["q:nope", "p", "p"] ++ "r:nope" :: ["p", "s"]) ∧
      (Session.step ⟨c, true, []⟩ (.compile "q:nope, p,p , r:nope, p, s")).1 =
        .compiled (.error (.unsupported "nope")) ∧
      after.entries["q:nope"]? = some "//other" ∧ after.entries["p"]? = some "//p" ∧
      after.entries["s"]? = none ∧ after.hits + after.misses = 7 + 4 := by
  intro c after
  have hsplit : Selector.splitClauses "q:nope, p,p , r:nope, p, s" =
      .ok (["q:nope", "p", "p"] ++ "r:nope" :: ["p", "s"]) := by decide +kernel
  have hbefore : ∀ k ∈ ["q:nope", "p", "p"], (c.find? k).isSome ∨
      ∃ xpath, Selector.compileClause c.folding k = .ok xpath := by
    have hp : Selector.compileClause c.folding "p" = .ok "//p" := by decide +kernel
    intro k hk
    obtain rfl | rfl | rfl : k = "q:nope" ∨ k = "p" ∨ k = "p" := by simpa using hk
    · exact .inl (by decide +kernel)
    · exact .inr ⟨"//p", hp⟩
    · exact .inr ⟨"//p", hp⟩
  obtain ⟨hreply, hold, hnew, hlater, hcount⟩ :=
    (compile_stops_at_failure ⟨c, true, []⟩ "q:nope, p,p , r:nope, p, s").2
      ["q:nope", "p", "p"] "r:nope" ["p", "s"] (.unsupported "nope") hsplit hbefore
      (by decide +kernel) (by decide +kernel)
  refine ⟨hsplit, hreply, hold _ _ (by decide +kernel), ?_, ?_, hcount⟩
  · exact (hnew "p" "//p" (by decide +kernel)).mpr ⟨by decide, by decide +kernel⟩
  · exact hlater "s" (by decide) (by decide +kernel) (by decide)

end Session

end SelectorPath
