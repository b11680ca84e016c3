/-
What a poisoned lock shows.

A writer that fails while it holds the lock has done a part of its work by then,
and this part stands. Whoever takes the lock later records a warning and goes
on. So a history in which writers fail and one in which they come to their end
can be told apart by the warnings only.

* `Note`, `Session.Op.notes`: all that a use can leave in the log, in order: the
  times it takes the lock, and its own records.
* `Session.Leads`: what a use comes to, begun with some cache, whatever the state
  of the lock; the notes are what it leaves in the log.
* `Session.leads_perform`: every use that does not fail, with its notes.
* `Session.cache_after_completed`, `Session.poisoned_after`: histories with and
  without failures.
* `Session.poison_only_warns`: the two histories compared, step by step.
-/
import SelectorPath.Proofs.Cache.Accounting

namespace SelectorPath

/-! ### Notes -/

/-- Something that a use can leave in the log. -/
inductive Note where
  /-- The lock is taken. -/
  | locked
  /-- Something is recorded. -/
  | said (r : Record)
  deriving DecidableEq

namespace Note

/-- What is recorded as long as no writer has failed: of the lock nothing. -/
def quiet : Note → Option Record
  | .locked => none
  | .said r => some r

/-- What is recorded after a writer has failed: every time that the lock is
taken, a warning. -/
def loud : Note → Record
  | .locked => .recovered
  | .said r => r

/-- What is recorded, given the state of the lock. -/
def shown (poisoned : Bool) (notes : List Note) : List Record :=
  if poisoned then notes.map loud else notes.filterMap quiet

@[simp] lemma shown_nil (poisoned : Bool) : shown poisoned [] = [] := by
  cases poisoned <;> rfl

/-- Notes are shown one by one. -/
lemma shown_append (poisoned : Bool) (notes notes' : List Note) :
    shown poisoned (notes ++ notes') = shown poisoned notes ++ shown poisoned notes' := by
  cases poisoned
  · exact List.filterMap_append
  · exact List.map_append

end Note

namespace Cache

/-- What compiling a clause leaves in the log, if others leave `meanwhile` between
the two times that the lock is taken. -/
def clauseNotes (c : Cache) (k : String) (meanwhile : List Note) : List Note :=
  match c.entries[k]? with
  | some _ => [.locked, .said (.hit k)]
  | none =>
    match Selector.compileClause c.folding k with
    | .error _ => [.locked]
    | .ok xpath => [.locked, .said (.compiled k xpath)] ++ meanwhile ++ [.locked]

/-- What compiling some clauses one after the other leaves in the log. -/
def answerNotes (c : Cache) : List String → List Note
  | [] => []
  | k :: ks => c.clauseNotes k [] ++ (c.settle k).answerNotes ks

/-- What adding pairs leaves in the log. -/
def extendNotes (c : Cache) (pairs : List (String × String)) : List Note :=
  [.locked, .said (.extended (c.extend pairs).1)]

lemma answerNotes_append (c : Cache) (ks ks' : List String) :
    c.answerNotes (ks ++ ks') = c.answerNotes ks ++ (c.settleAll ks).answerNotes ks' := by
  induction ks generalizing c with
  | nil => rfl
  | cons k ks ih => rw [List.cons_append, answerNotes, answerNotes, ih, settleAll_cons,
      List.append_assoc]

/-- The counts do not matter for how many pairs go in. -/
lemma extendNotes_lookup (c : Cache) (k : String) (pairs : List (String × String)) :
    (c.lookup k).2.extendNotes pairs = c.extendNotes pairs := by
  rw [extendNotes, extendNotes, extend, extend, entries_lookup]

end Cache

namespace Session

/-- All that a use leaves in the log, in order, given the cache that it finds.
Contents are put together before the lock is taken; pairs are counted, and the
cache is emptied, under the lock. -/
def Op.notes (c : Cache) : Op → List Note
  | .compile selector => c.answerNotes (Selector.asks c.answer selector)
  | .compileClause clause => c.clauseNotes (Cache.key clause) []
  | .find _ | .contains _ | .isEmpty | .size | .pairs | .stats | .failExtend _ => [.locked]
  | .folding => []
  | .clear => [.locked, .said .cleared]
  | .replace given => [.said (.replaced (Cache.entriesOf given).size), .locked]
  | .extend given => c.extendNotes given
  | .reload => [.locked, .said (.replaced c.size), .locked]
  | .compileClauseRaced clause rival => c.clauseNotes (Cache.key clause) (c.extendNotes [rival])
  | .warm selectors => c.answerNotes (selectors.flatMap (Selector.asks c.answer))

/-! ### What a use comes to -/

/-- Begun with the cache `c`, the use gives `a` and leaves the cache `c'` and the
notes, whatever the state of the lock. -/
def Leads {α : Type} (action : Action α) (c : Cache) (a : α) (c' : Cache)
    (notes : List Note) : Prop :=
  ∀ poisoned log,
    action.run ⟨c, poisoned, log⟩ = (a, ⟨c', poisoned, log ++ Note.shown poisoned notes⟩)

section Rules

variable {α β : Type} {c c' c'' : Cache} {a : α} {b : β} {notes notes' : List Note}

lemma Leads.pure (a : α) (c : Cache) : Leads (Pure.pure a : Action α) c a c [] := by
  intro poisoned log
  rw [Note.shown_nil, List.append_nil]
  rfl

/-- The notes of the second part come after those of the first. -/
lemma Leads.bind {action : Action α} {next : α → Action β} (h : Leads action c a c' notes)
    (hnext : Leads (next a) c' b c'' notes') :
    Leads (action >>= next) c b c'' (notes ++ notes') := by
  intro poisoned log
  rw [run_bind, h poisoned log, hnext poisoned, Note.shown_append, List.append_assoc]

lemma Leads.map {action : Action α} (h : Leads action c a c' notes) (f : α → β) :
    Leads (f <$> action) c (f a) c' notes := by
  intro poisoned log
  exact congrArg (fun result => (f result.1, result.2)) (h poisoned log)

/-- A use that only gives back what another one has come to. -/
lemma Leads.giving {action : Action α} (h : Leads action c a c' notes) (f : α → β) :
    Leads (action >>= fun a => Pure.pure (f a)) c (f a) c' notes := by
  have hbind : Leads (action >>= fun a => Pure.pure (f a)) c (f a) c' (notes ++ []) :=
    h.bind (Leads.pure (f a) c')
  rwa [List.append_nil] at hbind

lemma leads_record (r : Record) (c : Cache) : Leads (record r) c () c [.said r] := by
  intro poisoned log
  cases poisoned <;> rfl

lemma leads_cached (c : Cache) : Leads cached c c c [] := by
  intro poisoned log
  rw [Note.shown_nil, List.append_nil]
  rfl

/-- Taking the lock is one note, which is shown only if the lock is poisoned. -/
lemma leads_writing (f : Cache → α × Cache) (c : Cache) :
    Leads (writing f) c (f c).1 (f c).2 [.locked] := by
  intro poisoned log
  cases poisoned with
  | false =>
      show ((f c).1, Session.mk (f c).2 false log) = ((f c).1, ⟨(f c).2, false, log ++ []⟩)
      rw [List.append_nil]
  | true => rfl

lemma leads_reading (f : Cache → α) (c : Cache) : Leads (reading f) c (f c) c [.locked] :=
  leads_writing (fun c => (f c, c)) c

end Rules

lemma leads_extend (pairs : List (String × String)) (c : Cache) :
    Leads (extend pairs) c (c.extend pairs).1 (c.extend pairs).2 (c.extendNotes pairs) :=
  (leads_writing (·.extend pairs) c).bind ((leads_record _ _).bind (Leads.pure _ _))

/-- The record comes before the lock is taken. -/
lemma leads_replace (pairs : List (String × String)) (c : Cache) :
    Leads (replace pairs) c () (c.replace pairs)
      [.said (.replaced (Cache.entriesOf pairs).size), .locked] :=
  (leads_record _ _).bind (leads_writing (fun c => ((), c.replace pairs)) c)

/-! ### Compiling -/

/-- A clause is found, or fails, or is compiled and published after the others
have acted. -/
lemma leads_compileClauseAmid {others : Action Unit} {meanwhile : List Note} {c c' : Cache}
    (clause : String) (h : Leads others (c.lookup (Cache.key clause)).2 () c' meanwhile) :
    ∃ result after, Leads (compileClauseAmid others clause) c result after
      (c.clauseNotes (Cache.key clause) meanwhile) := by
  have hlookup := leads_writing (·.lookup (Cache.key clause)) c
  rw [Cache.fst_lookup] at hlookup
  rw [Cache.clauseNotes]
  cases hfiled : c.entries[Cache.key clause]? with
  | some xpath =>
      rw [hfiled] at hlookup
      exact ⟨_, _, hlookup.bind ((leads_record _ _).bind (Leads.pure _ _))⟩
  | none =>
      rw [hfiled] at hlookup
      cases hcompile : Selector.compileClause c.folding (Cache.key clause) with
      | error e =>
          refine ⟨.error e, (c.lookup (Cache.key clause)).2,
            hlookup.bind ((leads_cached _).bind ?_)⟩
          rw [Cache.folding_lookup, hcompile]
          exact Leads.pure _ _
      | ok xpath =>
          have hpublish := leads_writing (·.publish (Cache.key clause) xpath) c'
          refine ⟨.ok (c'.publish (Cache.key clause) xpath).1,
            (c'.publish (Cache.key clause) xpath).2, ?_⟩
          refine hlookup.bind ((leads_cached _).bind ?_)
          rw [Cache.folding_lookup, hcompile]
          exact (leads_record _ _).bind (h.bind (hpublish.bind (Leads.pure _ _)))

/-- Compiling a clause is asking for its key. -/
lemma leads_compileClause (clause : String) (c : Cache) :
    Leads (compileClause clause) c (c.answer (Cache.key clause)) (c.settle (Cache.key clause))
      (c.clauseNotes (Cache.key clause) []) := by
  obtain ⟨result, after, h⟩ := leads_compileClauseAmid clause
    (Leads.pure () (c.lookup (Cache.key clause)).2)
  -- it is known already what the answer is and which cache is left
  obtain ⟨hresult, hafter⟩ := run_compileClause clause ⟨c, false, []⟩
  have hrun : (compileClause clause).run ⟨c, false, []⟩ = _ := h false []
  rw [hrun] at hresult hafter
  subst hresult hafter
  exact h

/-- The notes of several clauses are those of the answers that they need. -/
lemma leads_compileClauses (clauses : List String) (c : Cache) :
    ∃ result after, Leads (compileClauses clauses) c result after
      (c.answerNotes (Error.reached c.answer (clauses.map Cache.key))) := by
  induction clauses generalizing c with
  | nil => exact ⟨_, _, Leads.pure _ _⟩
  | cons clause clauses ih =>
      have hclause := leads_compileClause clause c
      rw [List.map_cons]
      cases hfirst : c.answer (Cache.key clause) with
      | error e =>
          rw [hfirst] at hclause
          rw [Error.reached_cons_error hfirst]
          exact ⟨_, _, hclause.bind (Leads.pure _ _)⟩
      | ok xpath =>
          rw [hfirst] at hclause
          obtain ⟨result, after, hmore⟩ := ih (c.settle (Cache.key clause))
          rw [Cache.answer_settle] at hmore
          rw [Error.reached_cons_ok hfirst, Cache.answerNotes]
          exact ⟨_, after, hclause.bind (hmore.giving (·.map (xpath :: ·)))⟩

/-- Compiling a selector is asking for its clauses, up to the first that fails. -/
lemma leads_compile (selector : String) (c : Cache) :
    ∃ result, Leads (compile selector) c result
      (c.settleAll (Selector.asks c.answer selector))
      (c.answerNotes (Selector.asks c.answer selector)) := by
  have h : ∃ result after, Leads (compile selector) c result after
      (c.answerNotes (Selector.asks c.answer selector)) := by
    rw [compile]
    cases hsplit : Selector.splitClauses selector with
    | error e =>
        rw [Selector.asks_of_error hsplit]
        exact ⟨_, _, Leads.pure _ _⟩
    | ok clauses =>
        obtain ⟨result, after, hclauses⟩ := leads_compileClauses clauses c
        rw [Cache.map_key_of_splitClauses hsplit] at hclauses
        rw [Selector.asks_of_ok hsplit]
        exact ⟨_, _, hclauses.giving (·.map Compiled.mk)⟩
  obtain ⟨result, after, h⟩ := h
  obtain ⟨-, hafter⟩ := run_compile selector ⟨c, false, []⟩
  rw [h false []] at hafter
  subst hafter
  exact ⟨result, h⟩

lemma leads_mapM_compile (selectors : List String) (c : Cache) :
    ∃ results after, Leads (selectors.mapM compile) c results after
      (c.answerNotes (selectors.flatMap (Selector.asks c.answer))) := by
  induction selectors generalizing c with
  | nil => exact ⟨_, _, Leads.pure _ _⟩
  | cons selector selectors ih =>
      obtain ⟨result, hfirst⟩ := leads_compile selector c
      obtain ⟨results, after, hmore⟩ := ih (c.settleAll (Selector.asks c.answer selector))
      rw [Cache.answer_settleAll] at hmore
      rw [List.mapM_cons, List.flatMap_cons, Cache.answerNotes_append]
      exact ⟨_, _, hfirst.bind (hmore.giving (result :: ·))⟩

/-! ### One use -/

/-- The use of a writer that fails. -/
def Op.fails : Op → Bool
  | .failExtend _ => true
  | _ => false

/-- The use, with its writer coming to its end. -/
def Op.completed : Op → Op
  | .failExtend given => .extend given
  | op => op

lemma Op.completed_of_not_fails {op : Op} (h : op.fails = false) : op.completed = op := by
  cases op with
  | failExtend pairs => cases h
  | _ => rfl

lemma Op.fails_completed (op : Op) : op.completed.fails = false := by
  cases op <;> rfl

/-- A use that does not fail leaves its notes, and its answer and the cache after it
have nothing to do with the lock. -/
theorem leads_perform {op : Op} (h : op.fails = false) (c : Cache) :
    ∃ reply after, Leads (perform op) c reply after (op.notes c) := by
  cases op with
  | compile selector =>
      obtain ⟨result, hcompile⟩ := leads_compile selector c
      exact ⟨_, _, hcompile.map _⟩
  | compileClause clause => exact ⟨_, _, (leads_compileClause clause c).map _⟩
  | find clause => exact ⟨_, _, (leads_reading _ c).map _⟩
  | contains clause => exact ⟨_, _, (leads_reading _ c).map _⟩
  | isEmpty => exact ⟨_, _, (leads_reading _ c).map _⟩
  | size => exact ⟨_, _, (leads_reading _ c).map _⟩
  | pairs => exact ⟨_, _, (leads_reading _ c).map _⟩
  | stats => exact ⟨_, _, (leads_reading _ c).map _⟩
  | folding => exact ⟨_, _, (leads_cached c).bind (Leads.pure _ _)⟩
  | clear =>
      have hclear : Leads clear c () c.clear [.locked, .said .cleared] :=
        (leads_writing (fun c => ((), c.clear)) c).bind (leads_record _ _)
      exact ⟨_, _, hclear.bind (Leads.pure _ _)⟩
  | replace pairs => exact ⟨_, _, (leads_replace pairs c).bind (Leads.pure _ _)⟩
  | extend pairs => exact ⟨_, _, (leads_extend pairs c).map _⟩
  | reload =>
      have hreplace := (leads_replace c.pairs c).giving fun _ => Reply.done
      -- what is put back is what was listed
      rw [Cache.entriesOf_of_perm (List.Perm.refl c.pairs)] at hreplace
      exact ⟨_, _, (leads_reading Cache.pairs c).bind hreplace⟩
  | compileClauseRaced clause rival =>
      have hrival := (leads_extend [rival] (c.lookup (Cache.key clause)).2).giving fun _ => ()
      rw [Cache.extendNotes_lookup] at hrival
      obtain ⟨result, after, hclause⟩ := leads_compileClauseAmid clause hrival
      exact ⟨_, _, hclause.map _⟩
  | warm selectors =>
      obtain ⟨results, after, hwarm⟩ := leads_mapM_compile selectors c
      exact ⟨_, _, hwarm.map _⟩
  | failExtend pairs => cases h

/-- A writer that fails leaves the cache as one that comes to its end. -/
lemma cache_step_completed {s t : Session} (h : s.cache = t.cache) (op : Op) :
    (s.step op).2.cache = (t.step op.completed).2.cache := by
  cases hfails : op.fails with
  | false =>
      obtain ⟨reply, after, hop⟩ := leads_perform hfails s.cache
      have hs : s.step op = _ := hop s.poisoned []
      have ht : (perform op).run ⟨s.cache, t.poisoned, []⟩ = _ := hop t.poisoned []
      rw [h] at ht
      rw [Op.completed_of_not_fails hfails, hs, step, ht]
  | true =>
      cases op with
      | failExtend pairs =>
          have hs : (s.step (.failExtend pairs)).2.cache = (s.cache.extend pairs).2 :=
            (cache_writing (·.extend pairs) _).2
          have ht : (t.step (.extend pairs)).2.cache = (t.cache.extend pairs).2 :=
            (cache_writing (·.extend pairs) _).2
          rw [Op.completed, hs, ht, h]
      | _ => cases hfails

/-- The lock is poisoned by a writer that fails, and stays so. -/
lemma poisoned_step (s : Session) (op : Op) :
    (s.step op).2.poisoned = (s.poisoned || op.fails) := by
  cases hfails : op.fails with
  | false =>
      obtain ⟨reply, after, hop⟩ := leads_perform hfails s.cache
      have hs : s.step op = _ := hop s.poisoned []
      rw [hs, Bool.or_false]
  | true =>
      rw [Bool.or_true]
      cases op with
      | failExtend pairs => rfl
      | _ => cases hfails

/-! ### Histories -/

/-- The caches agree at all times. -/
lemma cache_after_completed {s t : Session} (h : s.cache = t.cache) (ops : List Op) :
    (s.after ops).cache = (t.after (ops.map Op.completed)).cache := by
  induction ops generalizing s t with
  | nil => exact h
  | cons op ops ih => exact ih (cache_step_completed h op)

/-- The lock is poisoned from the first failure on. -/
lemma poisoned_after (s : Session) (ops : List Op) :
    (s.after ops).poisoned = (s.poisoned || ops.any Op.fails) := by
  induction ops generalizing s with
  | nil => rw [List.any_nil, Bool.or_false, after, List.foldl_nil]
  | cons op ops ih =>
      have hrest : ((s.step op).2.after ops).poisoned = _ := ih (s.step op).2
      rw [List.any_cons, ← Bool.or_assoc, ← poisoned_step]
      exact hrest

/-- If all writers are let come to their end, the lock is not poisoned. -/
lemma not_poisoned_after_completed {s : Session} (hs : s.poisoned = false) (ops : List Op) :
    (s.after (ops.map Op.completed)).poisoned = false := by
  have hnone : (ops.map Op.completed).any Op.fails = false := by
    simp [List.any_eq_false, Op.fails_completed]
  rw [poisoned_after, hs, hnone, Bool.or_false]

/-- **A poisoned lock can be told by its warnings only.** Take any history of uses
in which some writers fail, and the same with these writers coming to their end.
The caches agree at all times, in their contents and in their counts. Every use
that does not fail itself has the same answer in both. Its log is that of its own
records in the history without failures, and so it is in the other one before the
first failure; after it there is one more warning for each time that the use takes
the lock, at its place among the records, and nothing else. -/
theorem poison_only_warns {s : Session} (hs : s.poisoned = false) (before : List Op) (op : Op) :
    let broken := (s.after before).step op
    let whole := (s.after (before.map Op.completed)).step op.completed
    broken.2.cache = whole.2.cache ∧
    (op.fails = false →
      let notes := op.notes (s.after before).cache
      broken.1 = whole.1 ∧ whole.2.log = notes.filterMap Note.quiet ∧
        broken.2.log = if before.any Op.fails then notes.map Note.loud else whole.2.log) := by
  intro broken whole
  have hcache : (s.after before).cache = (s.after (before.map Op.completed)).cache :=
    cache_after_completed rfl before
  refine ⟨cache_step_completed hcache op, ?_⟩
  intro hop notes
  obtain ⟨reply, after, hleads⟩ := leads_perform hop (s.after before).cache
  have hbroken : broken = _ := hleads (s.after before).poisoned []
  have hwhole : whole = (reply, ⟨after, false, Note.shown false notes⟩) := by
    have hrun := hleads (s.after (before.map Op.completed)).poisoned []
    rw [not_poisoned_after_completed hs] at hrun
    show (perform op.completed).run _ = _
    rw [Op.completed_of_not_fails hop, not_poisoned_after_completed hs, ← hcache]
    exact hrun
  rw [hbroken, hwhole, poisoned_after, hs]
  refine ⟨rfl, rfl, ?_⟩
  cases before.any Op.fails <;> rfl

/-- Two writers fail, the first with a pair whose key is filed by then. Afterwards
a batch finds a clause that only a form brought in makes compile, compiles one,
fails at one, and finds one that the first writer has filed. -/
theorem poison_only_warns_batch :
    let s : Session := ⟨⟨.ascii, Cache.entriesOf [("q:nope", "//other")], 2, 5⟩, false, []⟩
    let before : List Op :=
      [.compile "p", .failExtend [("p", "//rival"), ("q", "//mine")], .failExtend []]
    let op : Op := .warm ["q:nope, r", "r:bad, p", " q"]
    ((s.after before).step op).2.cache =
        ((s.after (before.map Op.completed)).step op.completed).2.cache ∧
      ((s.after before).step op).1 =
        ((s.after (before.map Op.completed)).step op.completed).1 ∧
      ((s.after (before.map Op.completed)).step op.completed).2.log =
        [.hit "q:nope", .compiled "r" "//r", .hit "q"] ∧
      ((s.after before).step op).2.log = [.recovered, .hit "q:nope", .recovered,
        .compiled "r" "//r", .recovered, .recovered, .recovered, .hit "q"] := by
  intro s before op
  obtain ⟨hcache, hop⟩ := poison_only_warns (s := s) rfl before op
  obtain ⟨hreply, hwhole, hbroken⟩ := hop rfl
  have hquiet : (op.notes (s.after before).cache).filterMap Note.quiet =
      [.hit "q:nope", .compiled "r" "//r", .hit "q"] := by decide +kernel
  have hloud : (op.notes (s.after before).cache).map Note.loud = [.recovered, .hit "q:nope",
      .recovered, .compiled "r" "//r", .recovered, .recovered, .recovered, .hit "q"] := by
    decide +kernel
  have hfailed : before.any Op.fails = true := rfl
  rw [if_pos hfailed, hloud] at hbroken
  rw [hquiet] at hwhole
  exact ⟨hcache, hreply, hwhole, hbroken⟩

end Session

end SelectorPath
