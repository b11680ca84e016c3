/-
A batch of selectors that are compiled at once through one cache.

Each selector is a job that asks the cache for one clause after the other. Whose
turn it is at the lock is up to a schedule, so that between two turns of a job
the others can have done anything. What the cache answers does not change
through this, and so neither does what a job will come to, nor which keys will be
filed in the end, nor how often the cache will have been asked.

* `Job`, `Batch`, `Batch.step`, `Batch.run`: the jobs, a turn, and the turns of a
  schedule.
* `Batch.step_cases`: all that a turn can do.
* `Batch.Conserves`: what no turn changes.
* `Batch.ended_of_turns`: with enough turns every job comes to an end.
* `Batch.schedule_independent`: the results, the contents and the number of
  questions are the same for all schedules, and those of compiling the selectors
  one by one.
-/
import Mathlib.Algebra.BigOperators.Group.Finset.Basic
import Mathlib.Algebra.BigOperators.Fin
import SelectorPath.Cache.Workers
import SelectorPath.Proofs.Cache.Answers

namespace SelectorPath

open XPath

/-! ### Jobs -/

namespace Job

/-- The job after an event. -/
def hear : Job → Answer → Job
  | .running _ more told, .compiled _ result => heard result more told
  | job, _ => job

/-- The keys that have not been answered. -/
def keys : Job → List String
  | .ended _ => []
  | .running clause more _ => (clause :: more).map Cache.key

/-- What a job comes to if the answers are given. -/
def outcome (f : String → Except Error String) : Job → Except Error Compiled
  | .ended result => result
  | .running clause more told =>
    (((clause :: more).map Cache.key).mapM f).map fun xpaths => ⟨told ++ xpaths⟩

lemma keys_next (more told : List String) : (next more told).keys = more.map Cache.key := by
  cases more <;> rfl

variable {f : String → Except Error String}

/-- A job that goes on comes to the forms told so far and those of the other clauses. -/
lemma outcome_next (more told : List String) :
    (next more told).outcome f =
      ((more.map Cache.key).mapM f).map fun xpaths => ⟨told ++ xpaths⟩ := by
  cases more with
  | nil =>
      show _ = Except.ok (Compiled.mk (told ++ []))
      rw [List.append_nil]
      rfl
  | cons clause more => rfl

section Heard

variable (clause : String) (more told : List String)

/-- An answer leaves what a job comes to. -/
lemma outcome_heard : (heard (f (Cache.key clause)) more told).outcome f =
    (running clause more told).outcome f := by
  rw [outcome, List.map_cons, List.mapM_cons]
  cases f (Cache.key clause) with
  | error e => rfl
  | ok xpath =>
      rw [heard, outcome_next]
      cases (more.map Cache.key).mapM f with
      | error e => rfl
      | ok xpaths =>
          show Except.ok (Compiled.mk (told ++ [xpath] ++ xpaths)) = .ok ⟨told ++ xpath :: xpaths⟩
          rw [List.append_assoc, List.singleton_append]

/-- An answer is one question less. -/
lemma reached_heard : Error.reached f (running clause more told).keys =
    Cache.key clause :: Error.reached f (heard (f (Cache.key clause)) more told).keys := by
  rw [keys, List.map_cons]
  cases hclause : f (Cache.key clause) with
  | error e => exact Error.reached_cons_error hclause _
  | ok xpath => rw [Error.reached_cons_ok hclause, heard, keys_next]

lemma length_reached_heard : (Error.reached f (running clause more told).keys).length =
    (Error.reached f (heard (f (Cache.key clause)) more told).keys).length + 1 := by
  rw [reached_heard, List.length_cons]

/-- There are fewer keys to ask for after an answer, and none after a failure. -/
lemma length_keys_heard (result : Except Error String) :
    (heard result more told).keys.length + 1 ≤ (running clause more told).keys.length := by
  rw [keys, List.length_map, List.length_cons]
  cases result with
  | error e => exact Nat.le_add_left 1 more.length
  | ok xpath => rw [heard, keys_next, List.length_map]

/-- The keys with a form, before and after an answer. -/
lemma mem_accepted_heard (k : String) : k ∈ Error.accepted f (running clause more told).keys ↔
    k = Cache.key clause ∧ (f k).isOk ∨
      k ∈ Error.accepted f (heard (f (Cache.key clause)) more told).keys := by
  rw [Error.mem_accepted_iff, Error.mem_accepted_iff, reached_heard, List.mem_cons, or_and_right]

end Heard

/-- A job comes to what its selector compiles to, given the answers. -/
lemma outcome_start (f : String → Except Error String) (selector : String) :
    (start selector).outcome f = Selector.resolve f selector := by
  rw [start]
  cases hsplit : Selector.splitClauses selector with
  | error e => rw [Selector.resolve_of_error hsplit, outcome]
  | ok clauses =>
      rw [Selector.resolve_of_ok hsplit]
      show (next clauses []).outcome f = _
      rw [outcome_next, Cache.map_key_of_splitClauses hsplit]
      rfl

lemma keys_start_of_ok {selector : String} {clauses : List String}
    (h : Selector.splitClauses selector = .ok clauses) : (start selector).keys = clauses := by
  rw [start, h]
  exact (keys_next clauses []).trans (Cache.map_key_of_splitClauses h)

lemma keys_start_of_error {selector : String} {e : Error}
    (h : Selector.splitClauses selector = .error e) : (start selector).keys = [] := by
  rw [start, h]
  rfl

/-- At the start, what a job will ask for is what its selector asks for. -/
lemma reached_start (f : String → Except Error String) (selector : String) :
    Error.reached f (start selector).keys = Selector.asks f selector := by
  cases hsplit : Selector.splitClauses selector with
  | error e => rw [keys_start_of_error hsplit, Selector.asks_of_error hsplit, Error.reached,
      List.take_nil]
  | ok clauses => rw [keys_start_of_ok hsplit, Selector.asks_of_ok hsplit]

/-- Clauses that are counted are all the keys of a job at its start. -/
lemma turns_start {selector : String} {n : Nat} (h : ∀ clauses,
    Selector.splitClauses selector = .ok clauses → 2 * clauses.length ≤ n) :
    2 * (start selector).keys.length ≤ n := by
  cases hsplit : Selector.splitClauses selector with
  | error e =>
      rw [keys_start_of_error hsplit]
      exact Nat.zero_le n
  | ok clauses =>
      rw [keys_start_of_ok hsplit]
      exact h clauses hsplit

end Job

/-! ### Batches -/

/-- Jobs that use one cache. -/
structure Batch (ι : Type) where
  /-- The cache with the calls under way. -/
  shared : Shared ι
  /-- The jobs. -/
  jobs : ι → Job

namespace Batch

variable {ι : Type}

/-- The batch of compiling some selectors. -/
def start (c : Cache) (selectors : ι → String) : Batch ι :=
  ⟨⟨c, fun _ => none⟩, fun i => Job.start (selectors i)⟩

/-- All jobs are over. -/
def HasEnded (b : Batch ι) : Prop := ∀ i, ∃ result, b.jobs i = .ended result

/-- The cache tells what it is expected to tell, and every call under way is for
the clause of its job. -/
structure Sound (f : String → Except Error String) (b : Batch ι) : Prop where
  /-- What the cache tells. -/
  answers : b.shared.cache.answer = f
  /-- The calls under way. -/
  calls : ∀ i call, b.shared.pending i = some call →
    (∃ more told, b.jobs i = .running call.clause more told) ∧
      Selector.compileClause b.shared.cache.folding (Cache.key call.clause) = .ok call.xpath

/-- One for a job that has compiled its clause and not yet published it. -/
def ahead (b : Batch ι) (i : ι) : Nat := if (b.shared.pending i).isSome then 1 else 0

/-- How often a job will still ask the cache. -/
def due (f : String → Except Error String) (b : Batch ι) (i : ι) : Nat :=
  (Error.reached f (b.jobs i).keys).length - b.ahead i

/-- The key is filed, or a job will come to it and have a form of it. -/
def Held (f : String → Except Error String) (b : Batch ι) (k : String) : Prop :=
  k ∈ b.shared.cache.entries ∨ ∃ i, k ∈ Error.accepted f (b.jobs i).keys

/-- How often the cache has been asked. -/
def asked (b : Batch ι) : Nat := b.shared.cache.hits + b.shared.cache.misses

section Start

variable (c : Cache) (selectors : ι → String)

/-- At the start no call is under way. -/
lemma sound_start : (start c selectors).Sound c.answer := by
  refine ⟨rfl, fun i call hcall => ?_⟩
  cases hcall

/-- Which keys will be filed is known at the start: those that are there, and those that
are asked for and have a form. -/
lemma held_start_iff (k : String) : (start c selectors).Held c.answer k ↔
    k ∈ c.entries ∨ (∃ i, k ∈ Selector.asks c.answer (selectors i)) ∧ (c.answer k).isOk := by
  rw [Held, ← exists_and_right]
  refine or_congr Iff.rfl (exists_congr fun i => ?_)
  rw [← Job.reached_start, ← Error.mem_accepted_iff]
  rfl

/-- How often each job will ask is known at the start. -/
lemma due_start (i : ι) :
    (start c selectors).due c.answer i = (Selector.asks c.answer (selectors i)).length := by
  rw [← Job.reached_start]
  rfl

end Start

/-! ### Turns -/

variable [DecidableEq ι]

/-- What a job does when it is its turn: it publishes what it has compiled, or
begins to compile its clause. -/
def event? (b : Batch ι) (i : ι) : Option (Event ι) :=
  match b.jobs i, b.shared.pending i with
  | .ended _, _ => none
  | .running clause _ _, none => some (.lookup i clause)
  | .running _ _ _, some _ => some (.publish i)

/-- The turn of a job. -/
def step (b : Batch ι) (i : ι) : Batch ι :=
  match b.event? i with
  | none => b
  | some event => ⟨(b.shared.step event).2,
      Function.update b.jobs i ((b.jobs i).hear (b.shared.step event).1)⟩

/-- The turns of a schedule. -/
def run (b : Batch ι) (schedule : List ι) : Batch ι := schedule.foldl step b

variable {f : String → Except Error String} {b : Batch ι}

/-- All that a turn can do. Nothing, if the job is over. A clause that is filed or
fails is answered at once; any other is compiled, and its form is published with
the next turn. -/
lemma step_cases (hb : b.Sound f) (i : ι) :
    (∃ result, b.jobs i = .ended result ∧ b.step i = b) ∨
    (∃ clause more told, b.jobs i = .running clause more told ∧ b.shared.pending i = none ∧
      ((f (Cache.key clause)).isOk → Cache.key clause ∈ b.shared.cache.entries) ∧
      b.step i = ⟨⟨(b.shared.cache.lookup (Cache.key clause)).2, b.shared.pending⟩,
        Function.update b.jobs i (.heard (f (Cache.key clause)) more told)⟩) ∨
    (∃ clause more told xpath, b.jobs i = .running clause more told ∧
      b.shared.pending i = none ∧
      Selector.compileClause b.shared.cache.folding (Cache.key clause) = .ok xpath ∧
      b.step i = ⟨⟨(b.shared.cache.lookup (Cache.key clause)).2,
        Function.update b.shared.pending i (some ⟨clause, xpath⟩)⟩, b.jobs⟩) ∨
    (∃ clause more told xpath, b.jobs i = .running clause more told ∧
      b.shared.pending i = some ⟨clause, xpath⟩ ∧
      Selector.compileClause b.shared.cache.folding (Cache.key clause) = .ok xpath ∧
      b.step i = ⟨⟨(b.shared.cache.publish (Cache.key clause) xpath).2,
          Function.update b.shared.pending i none⟩,
        Function.update b.jobs i (.heard (f (Cache.key clause)) more told)⟩) := by
  cases hjob : b.jobs i with
  | ended result => exact .inl ⟨result, rfl, by simp only [step, event?, hjob]⟩
  | running clause more told =>
      cases hpending : b.shared.pending i with
      | some call =>
          obtain ⟨⟨more', told', hcall⟩, hxpath⟩ := hb.calls i call hpending
          obtain ⟨rfl, -, -⟩ := Job.running.inj (hjob.symm.trans hcall)
          refine .inr (.inr (.inr ⟨call.clause, more, told, call.xpath, rfl, rfl, hxpath, ?_⟩))
          -- another job may have published first; its form is told then, and is the answer
          simp only [step, event?, hjob, hpending, Shared.step_publish hpending, Job.hear,
            ← hb.answers, Cache.answer_eq_fst_publish hxpath]
      | none =>
          cases hfiled : b.shared.cache.entries[Cache.key clause]? with
          | some xpath =>
              refine .inr (.inl ⟨clause, more, told, rfl, rfl, fun _ => ?_, ?_⟩)
              · rw [Std.ExtTreeMap.mem_iff_isSome_getElem?, hfiled, Option.isSome_some]
              · simp only [step, event?, hjob, hpending, Shared.step_lookup_hit hpending hfiled,
                  Job.hear, ← hb.answers, Cache.answer_of_filed hfiled]
          | none =>
              have htold := Cache.answer_of_missing hfiled
              cases hcompile : Selector.compileClause b.shared.cache.folding (Cache.key clause) with
              | error e =>
                  rw [hcompile, hb.answers] at htold
                  refine .inr (.inl ⟨clause, more, told, rfl, rfl, fun hok => ?_, ?_⟩)
                  · exact absurd hok (Error.not_isOk_of_eq_error htold)
                  · simp only [step, event?, hjob, hpending, Job.hear, htold,
                      Shared.step_lookup_error hpending hfiled hcompile]
              | ok xpath =>
                  refine .inr (.inr (.inl ⟨clause, more, told, xpath, rfl, rfl, hcompile, ?_⟩))
                  simp only [step, event?, hjob, hpending, Job.hear,
                    Shared.step_lookup_ok hpending hfiled hcompile]
                  rw [← hjob, Function.update_eq_self]

/-- Nobody else is concerned. -/
lemma step_of_ne (hb : b.Sound f) {i j : ι} (hne : j ≠ i) :
    (b.step i).jobs j = b.jobs j ∧ (b.step i).shared.pending j = b.shared.pending j := by
  obtain ⟨_, -, h⟩ | ⟨_, _, _, -, -, -, h⟩ | ⟨_, _, _, _, -, -, -, h⟩ |
    ⟨_, _, _, _, -, -, -, h⟩ := step_cases hb i
  all_goals simp only [h, Function.update_of_ne hne, and_self]

lemma folding_step (hb : b.Sound f) (i : ι) :
    (b.step i).shared.cache.folding = b.shared.cache.folding := by
  obtain ⟨_, -, h⟩ | ⟨_, _, _, -, -, -, h⟩ | ⟨_, _, _, _, -, -, -, h⟩ |
    ⟨_, _, _, _, -, -, -, h⟩ := step_cases hb i
  all_goals simp only [h, Cache.folding_lookup, Cache.folding_publish]

/-- No turn changes what the cache tells. -/
lemma answer_step (hb : b.Sound f) (i : ι) :
    (b.step i).shared.cache.answer = b.shared.cache.answer := by
  obtain ⟨_, -, h⟩ | ⟨_, _, _, -, -, -, h⟩ | ⟨_, _, _, _, -, -, -, h⟩ |
    ⟨_, _, _, _, -, -, hxpath, h⟩ := step_cases hb i
  · rw [h]
  · rw [h, Cache.answer_lookup]
  · rw [h, Cache.answer_lookup]
  · rw [h, Cache.answer_publish hxpath]

/-- A turn leaves what the cache tells, and every call is for the clause of its
job. -/
lemma Sound.step (hb : b.Sound f) (i : ι) : (b.step i).Sound f := by
  refine ⟨(answer_step hb i).trans hb.answers, fun j call hcall => ?_⟩
  rw [folding_step hb i]
  by_cases hne : j = i
  · subst hne
    obtain ⟨_, -, h⟩ | ⟨_, _, _, -, hpending, -, h⟩ |
      ⟨clause, more, told, xpath, hjob, -, hxpath, h⟩ | ⟨_, _, _, _, -, -, -, h⟩ := step_cases hb j
    · rw [h] at hcall ⊢
      exact hb.calls j call hcall
    · simp [h, hpending] at hcall
    · rw [h] at hcall ⊢
      obtain rfl : (⟨clause, xpath⟩ : Call) = call := by simpa using hcall
      exact ⟨⟨more, told, hjob⟩, hxpath⟩
    · simp [h] at hcall
  · obtain ⟨hjob, hpending⟩ := step_of_ne hb hne
    rw [hjob]
    exact hb.calls j call (hpending.symm.trans hcall)

/-! ### What no turn changes -/

/-- No turn changes what a job comes to, its own or another. -/
lemma outcome_step (hb : b.Sound f) (i j : ι) :
    ((b.step i).jobs j).outcome f = (b.jobs j).outcome f := by
  by_cases hne : j = i
  · subst hne
    obtain ⟨_, -, h⟩ | ⟨clause, more, told, hjob, -, -, h⟩ | ⟨_, _, _, _, -, -, -, h⟩ |
      ⟨clause, more, told, _, hjob, -, -, h⟩ := step_cases hb j
    · rw [h]
    · simp only [h, hjob, Function.update_self, Job.outcome_heard]
    · rw [h]
    · simp only [h, hjob, Function.update_self, Job.outcome_heard]
  · rw [(step_of_ne hb hne).1]

/-- What the job whose turn it is files, it had been going to file. -/
lemma filed_step_iff (hb : b.Sound f) (i : ι) (k : String) :
    k ∈ (b.step i).shared.cache.entries ∨ k ∈ Error.accepted f ((b.step i).jobs i).keys ↔
      k ∈ b.shared.cache.entries ∨ k ∈ Error.accepted f (b.jobs i).keys := by
  obtain ⟨_, -, h⟩ | ⟨clause, more, told, hjob, -, hfiled, h⟩ | ⟨_, _, _, _, -, -, -, h⟩ |
    ⟨clause, more, told, xpath, hjob, -, hxpath, h⟩ := step_cases hb i
  · rw [h]
  · -- a clause with a form that is answered at once was there
    have hk : k = Cache.key clause ∧ (f k).isOk → k ∈ b.shared.cache.entries := by
      rintro ⟨rfl, hok⟩
      exact hfiled hok
    rw [hjob, Job.mem_accepted_heard, ← or_assoc, or_iff_left_of_imp hk]
    simp only [h, Function.update_self, Cache.entries_lookup]
  · simp only [h, Cache.entries_lookup]
  · -- a clause that is published has a form
    have hk : k = Cache.key clause → (f k).isOk := by
      rintro rfl
      rw [← hb.answers]
      exact Cache.isOk_answer (.inr ⟨xpath, hxpath⟩)
    rw [hjob, Job.mem_accepted_heard, and_iff_left_of_imp hk, ← or_assoc, or_comm (b := k = _)]
    simp only [h, Function.update_self, Cache.mem_publish_iff]

/-- A turn moves a key from those that a job will come to to those that are filed, or
leaves it. -/
lemma held_step (hb : b.Sound f) (i : ι) (k : String) : (b.step i).Held f k ↔ b.Held f k := by
  have hturn := filed_step_iff hb i k
  have hothers : ∀ j, j ≠ i → (k ∈ Error.accepted f ((b.step i).jobs j).keys ↔
      k ∈ Error.accepted f (b.jobs j).keys) := by
    intro j hne
    rw [(step_of_ne hb hne).1]
  rw [Held, Held]
  grind

/-- A question that is asked is no longer due. -/
lemma asked_step (hb : b.Sound f) (i : ι) :
    (b.step i).asked + (b.step i).due f i = b.asked + b.due f i := by
  obtain ⟨_, -, h⟩ | ⟨clause, more, told, hjob, hpending, -, h⟩ |
    ⟨clause, more, told, xpath, hjob, hpending, -, h⟩ |
    ⟨clause, more, told, xpath, hjob, hpending, -, h⟩ := step_cases hb i
  · rw [h]
  · have hcount := b.shared.cache.count_lookup (Cache.key clause)
    have hreached := Job.length_reached_heard (f := f) clause more told
    simp only [asked, due, ahead, h, hjob, hpending, Function.update_self, Option.isSome_none,
      Bool.false_eq_true, if_false]
    omega
  · have hcount := b.shared.cache.count_lookup (Cache.key clause)
    have hreached := Job.length_reached_heard (f := f) clause more told
    simp only [asked, due, ahead, h, hjob, hpending, Function.update_self, Option.isSome_none,
      Option.isSome_some, Bool.false_eq_true, if_false, if_true]
    omega
  · have hreached := Job.length_reached_heard (f := f) clause more told
    simp only [asked, due, ahead, h, hjob, hpending, Function.update_self, Option.isSome_none,
      Option.isSome_some, Bool.false_eq_true, if_false, if_true, Cache.hits_publish,
      Cache.misses_publish]
    omega

section Runs

variable [Fintype ι]

/-- What no turn changes: what the cache tells, what the jobs come to, which keys
will be filed, and how often the cache will have been asked. -/
structure Conserves (f : String → Except Error String) (b b' : Batch ι) : Prop where
  /-- The cache tells what it told. -/
  sound : b'.Sound f
  /-- The jobs come to the same. -/
  outcomes : ∀ j, (b'.jobs j).outcome f = (b.jobs j).outcome f
  /-- The same keys will be filed. -/
  held : ∀ k, b'.Held f k ↔ b.Held f k
  /-- There will have been as many questions. -/
  asked : b'.asked + ∑ j, b'.due f j = b.asked + ∑ j, b.due f j

/-- One turn conserves all of it. -/
lemma conserves_step (hb : b.Sound f) (i : ι) : Conserves f b (b.step i) := by
  refine ⟨hb.step i, outcome_step hb i, held_step hb i, ?_⟩
  have hothers : ∑ j ∈ Finset.univ.erase i, (b.step i).due f j =
      ∑ j ∈ Finset.univ.erase i, b.due f j := by
    refine Finset.sum_congr rfl fun j hj => ?_
    obtain ⟨hjob, hpending⟩ := step_of_ne hb (Finset.ne_of_mem_erase hj)
    rw [due, due, ahead, ahead, hjob, hpending]
  -- only the summand of the job whose turn it is changes
  have hsum : ∀ b : Batch ι, ∑ j, b.due f j = b.due f i + ∑ j ∈ Finset.univ.erase i, b.due f j :=
    fun b => (Finset.add_sum_erase _ _ (Finset.mem_univ i)).symm
  rw [hsum, hsum, hothers, ← Nat.add_assoc, ← Nat.add_assoc, asked_step hb i]

/-- So do the turns of any schedule. -/
lemma conserves_run (hb : b.Sound f) (schedule : List ι) : Conserves f b (b.run schedule) := by
  induction schedule generalizing b with
  | nil => exact ⟨hb, fun _ => rfl, fun _ => Iff.rfl, rfl⟩
  | cons i schedule ih =>
      have hturn := conserves_step hb i
      have hrest := ih (hb.step i)
      exact ⟨hrest.sound, fun j => (hrest.outcomes j).trans (hturn.outcomes j),
        fun k => (hrest.held k).trans (hturn.held k), hrest.asked.trans hturn.asked⟩

end Runs

/-! ### Every job comes to an end -/

/-- A bound for the turns that a job needs: two for each clause. -/
def work (b : Batch ι) (i : ι) : Nat := 2 * (b.jobs i).keys.length - b.ahead i

omit [DecidableEq ι] in
/-- A job that is not over has turns to take. -/
lemma work_pos {i : ι} {clause : String} {more told : List String}
    (h : b.jobs i = .running clause more told) : 0 < b.work i := by
  rw [work, ahead, h, Job.keys, List.length_map, List.length_cons]
  split_ifs <;> omega

/-- A turn is one turn less to take. -/
lemma work_step (hb : b.Sound f) (i : ι) : (b.step i).work i ≤ b.work i - 1 := by
  obtain ⟨result, hjob, h⟩ | ⟨clause, more, told, hjob, hpending, -, h⟩ |
    ⟨clause, more, told, xpath, hjob, hpending, -, h⟩ |
    ⟨clause, more, told, xpath, hjob, hpending, -, h⟩ := step_cases hb i
  · rw [h, work, hjob, Job.keys, List.length_nil]
    omega
  · have hkeys := Job.length_keys_heard clause more told (f (Cache.key clause))
    simp only [work, ahead, h, hjob, hpending, Function.update_self]
    omega
  · have hkeys := Job.length_keys_heard clause more told (f (Cache.key clause))
    simp only [work, ahead, h, hjob, hpending, Function.update_self, Option.isSome_none,
      Option.isSome_some, Bool.false_eq_true, if_false, if_true]
    omega
  · have hkeys := Job.length_keys_heard clause more told (f (Cache.key clause))
    simp only [work, ahead, h, hjob, hpending, Function.update_self, Option.isSome_none,
      Option.isSome_some, Bool.false_eq_true, if_false, if_true]
    omega

/-- A schedule takes a turn off a job's work for each time it names the job. -/
lemma work_run (hb : b.Sound f) (schedule : List ι) (i : ι) :
    (b.run schedule).work i ≤ b.work i - schedule.count i := by
  induction schedule generalizing b with
  | nil => exact Nat.le_refl _
  | cons j schedule ih =>
      have hrest : ((b.step j).run schedule).work i ≤ _ := ih (hb.step j)
      by_cases hne : i = j
      · subst hne
        have hturn := work_step hb i
        rw [List.count_cons_self]
        exact hrest.trans (by omega)
      · obtain ⟨hjob, hpending⟩ := step_of_ne hb hne
        have hsame : (b.step j).work i = b.work i := by
          rw [work, work, ahead, ahead, hjob, hpending]
        rw [List.count_cons_of_ne (Ne.symm hne), ← hsame]
        exact hrest

/-- With two turns for each clause every job comes to an end, whatever the order
of the turns. -/
lemma ended_of_turns (hb : b.Sound f) {schedule : List ι}
    (h : ∀ i, 2 * (b.jobs i).keys.length ≤ schedule.count i) : (b.run schedule).HasEnded := by
  intro i
  have hwork : (b.run schedule).work i = 0 := by
    have hrun := work_run hb schedule i
    have hbegun : b.work i ≤ 2 * (b.jobs i).keys.length := Nat.sub_le _ _
    have hturns := h i
    omega
  cases hjob : (b.run schedule).jobs i with
  | ended result => exact ⟨result, rfl⟩
  | running clause more told => exact absurd hwork (Nat.ne_of_gt (work_pos hjob))

/-! ### The end -/

section Ends

variable [Fintype ι] (c : Cache) (selectors : ι → String) {schedule : List ι}

/-- What a job comes to is settled at the beginning. -/
lemma eq_of_ended {i : ι} {result : Except Error Compiled}
    (h : ((start c selectors).run schedule).jobs i = .ended result) :
    result = Selector.resolve c.answer (selectors i) := by
  have hrun := (conserves_run (sound_start c selectors) schedule).outcomes i
  rw [h] at hrun
  exact hrun.trans (Job.outcome_start c.answer (selectors i))

/-- The contents in the end: what was there, and the forms of the clauses that were
asked for. -/
lemma filed_of_ended (h : ((start c selectors).run schedule).HasEnded) (k xpath : String) :
    ((start c selectors).run schedule).shared.cache.entries[k]? = some xpath ↔
      c.entries[k]? = some xpath ∨
        (∃ i, k ∈ Selector.asks c.answer (selectors i)) ∧ c.answer k = .ok xpath := by
  have hrun := conserves_run (sound_start c selectors) schedule
  have hheld := (hrun.held k).trans (held_start_iff c selectors k)
  have hnone : ∀ i,
      k ∉ Error.accepted c.answer (((start c selectors).run schedule).jobs i).keys := by
    intro i
    obtain ⟨result, hjob⟩ := h i
    rw [hjob]
    exact List.not_mem_nil
  have hok : c.answer k = .ok xpath → (c.answer k).isOk := Error.isOk_of_eq_ok
  rw [Held, or_iff_left (not_exists.mpr hnone)] at hheld
  rw [Cache.filed_iff_mem, hrun.sound.answers, hheld, Cache.filed_iff_mem, or_and_right, and_assoc,
    and_iff_right_of_imp hok]

/-- In the end there are no questions due, so that their number is what was due at the
start. -/
lemma asked_of_ended (h : ((start c selectors).run schedule).HasEnded) :
    ((start c selectors).run schedule).asked =
      c.hits + c.misses + ∑ i, (Selector.asks c.answer (selectors i)).length := by
  have hrun := (conserves_run (sound_start c selectors) schedule).asked
  have hnone : ∑ i, ((start c selectors).run schedule).due c.answer i = 0 := by
    refine Finset.sum_eq_zero fun i _ => ?_
    obtain ⟨result, hjob⟩ := h i
    rw [due, hjob, Job.keys, Error.reached, List.take_nil, List.length_nil, Nat.zero_sub]
  rw [hnone, Finset.sum_congr rfl fun i _ => due_start c selectors i] at hrun
  exact hrun

end Ends

/-- **No schedule matters.** Let some selectors be compiled at once, through a
cache with any contents, with their lookups and publications in any order. A
selector that comes to an end has come to what it compiles to alone, and with two
turns for each of its clauses it comes to an end. When all have, the contents are
what was there, and the clauses of each selector before the first that fails, with
what they compile to; and how often the cache was asked is settled too. It is as
if they had been compiled one after the other. So with the selectors in another
order the results are in that order, and the contents are the same. -/
theorem schedule_independent (c : Cache) {n : Nat} (selectors : Fin n → String) :
    let alone := fun selector => ((Session.compile selector).run { cache := c }).1
    let begun := start c selectors
    (∀ schedule i result, (begun.run schedule).jobs i = .ended result →
      result = alone (selectors i)) ∧
    (∀ schedule, (∀ i clauses, Selector.splitClauses (selectors i) = .ok clauses →
      2 * clauses.length ≤ schedule.count i) → (begun.run schedule).HasEnded) ∧
    (∀ schedule, (begun.run schedule).HasEnded →
      let after := (begun.run schedule).shared.cache
      let inTurn := Session.step { cache := c } (.warm (List.ofFn selectors))
      (∀ i, (begun.run schedule).jobs i = .ended (alone (selectors i))) ∧
      (∀ k xpath : String, after.entries[k]? = some xpath ↔ c.entries[k]? = some xpath ∨
        c.entries[k]? = none ∧ Selector.compileClause c.folding k = .ok xpath ∧
          ∃ i clauses, Selector.splitClauses (selectors i) = .ok clauses ∧
            k ∈ Error.accepted c.answer clauses) ∧
      after.hits + after.misses =
        c.hits + c.misses + ∑ i, (Selector.asks c.answer (selectors i)).length ∧
      inTurn.1 = .batch (List.ofFn fun i => alone (selectors i)) ∧
      inTurn.2.cache.entries = after.entries ∧
      inTurn.2.cache.hits + inTurn.2.cache.misses = after.hits + after.misses) ∧
    ∀ (σ : Equiv.Perm (Fin n)) schedule schedule', (begun.run schedule).HasEnded →
      ((start c (selectors ∘ σ)).run schedule').HasEnded →
        (∀ i, ((start c (selectors ∘ σ)).run schedule').jobs i =
          (begun.run schedule).jobs (σ i)) ∧
        ((start c (selectors ∘ σ)).run schedule').shared.cache.entries =
          (begun.run schedule).shared.cache.entries := by
  intro alone begun
  -- alone, a selector has the results of its clauses as the cache answers them at first
  have halone : ∀ selector, alone selector = Selector.resolve c.answer selector :=
    fun selector => (Session.run_compile selector { cache := c }).1
  have hjobs : ∀ {selectors : Fin n → String} {schedule},
      ((start c selectors).run schedule).HasEnded →
        ∀ i, ((start c selectors).run schedule).jobs i = .ended (alone (selectors i)) := by
    intro selectors schedule h i
    obtain ⟨result, hjob⟩ := h i
    rw [hjob, eq_of_ended c selectors hjob, halone]
  refine ⟨?_, ?_, ?_, ?_⟩
  · intro schedule i result h
    rw [halone]
    exact eq_of_ended c selectors h
  · intro schedule hturns
    exact ended_of_turns (sound_start c selectors) fun i => Job.turns_start (hturns i)
  · -- both the batch and the selectors in turn file what was asked for and has a form
    intro schedule h after inTurn
    obtain ⟨hreply, hcache⟩ : inTurn.1 = _ ∧ inTurn.2.cache = _ :=
      Session.step_warm (List.ofFn selectors) { cache := c }
    have hasked : after.hits + after.misses = _ := asked_of_ended c selectors h
    refine ⟨hjobs h, ?_, hasked, ?_, ?_, ?_⟩
    · intro k xpath
      rw [filed_of_ended c selectors h]
      -- what was filed at first answers for itself; for the rest the answer is the compiler's
      cases hfiled : c.entries[k]? with
      | some filed => simp [Cache.answer_of_filed hfiled]
      | none =>
          rw [Cache.answer_of_missing hfiled, and_comm, eq_self, true_and]
          refine or_congr Iff.rfl (and_congr_right fun hxpath => ?_)
          refine exists_congr fun i => Selector.mem_asks_iff ?_
          exact Error.isOk_of_eq_ok ((Cache.answer_of_missing hfiled).trans hxpath)
    · rw [hreply, List.map_ofFn]
      exact congrArg Session.Reply.batch (congrArg List.ofFn (funext fun i => (halone _).symm))
    · refine Entries.ext_filed fun k xpath => ?_
      rw [hcache, Cache.filed_settleAll_iff, filed_of_ended c selectors h]
      simp [List.mem_flatMap]
    · rw [hasked, hcache, Cache.count_settleAll, List.length_flatMap, List.map_ofFn, List.sum_ofFn]
      rfl
  · intro σ schedule schedule' h h'
    refine ⟨fun i => ?_, ?_⟩
    · rw [hjobs h, hjobs h', Function.comp_apply]
    · refine Entries.ext_filed fun k xpath => ?_
      rw [filed_of_ended c selectors h, filed_of_ended c _ h',
        σ.surjective.exists (p := fun i => k ∈ Selector.asks c.answer (selectors i))]
      rfl

/-- Two selectors begin with the same clause, which both look up before either
publishes it. One goes on to a clause that compiles only because a form of it is
there, the other to one that fails. A third is malformed, and the last has the
clauses of the first. Then all of them again, in reverse and one by one. -/
theorem schedule_independent_shared :
    let c : Cache := ⟨.ascii, Cache.entriesOf [("q:nope", "//other")], 3, 4⟩
    let selectors : Fin 4 → String := !["p, q:nope", "p, r:nope, s", "p,", "q:nope , p"]
    let b := (start c selectors).run [0, 1, 3, 3, 1, 0, 0, 0, 1, 1, 1, 1, 3, 3]
    let b' := (start c (selectors ∘ Fin.revPerm)).run [3, 3, 3, 3, 2, 2, 2, 2, 2, 2, 0, 0, 0, 0]
    b.HasEnded ∧ b.jobs 0 = .ended (.ok ⟨["//p", "//other"]⟩) ∧
      b.jobs 1 = .ended (.error (.unsupported "nope")) ∧
      b.shared.cache.entries["p"]? = some "//p" ∧
      b.shared.cache.hits + b.shared.cache.misses = 7 + 6 ∧
      (∀ i, b'.jobs i = b.jobs (Fin.revPerm i)) ∧
      b'.shared.cache.entries = b.shared.cache.entries := by
  intro c selectors b b'
  -- two turns for each clause are enough, and the schedules have them
  have hturns : ∀ i, 2 * (Job.start (selectors i)).keys.length ≤
      [0, 1, 3, 3, 1, 0, 0, 0, 1, 1, 1, 1, 3, 3].count i := by decide +kernel
  have hturns' : ∀ i, 2 * (Job.start (selectors (Fin.revPerm i))).keys.length ≤
      [3, 3, 3, 3, 2, 2, 2, 2, 2, 2, 0, 0, 0, 0].count i := by decide +kernel
  obtain ⟨-, hended, hends, hperm⟩ := schedule_independent c selectors
  have hb : b.HasEnded := hended _ fun i clauses hsplit => by
    rw [← Job.keys_start_of_ok hsplit]
    exact hturns i
  have hb' : b'.HasEnded := (schedule_independent c (selectors ∘ Fin.revPerm)).2.1 _
    fun i clauses hsplit => by
      rw [← Job.keys_start_of_ok hsplit]
      exact hturns' i
  obtain ⟨hjobs, hfiled, hasked, -⟩ := hends _ hb
  obtain ⟨hjobs', hfiled'⟩ := hperm Fin.revPerm _ _ hb hb'
  refine ⟨hb, ?_, ?_, ?_, ?_, hjobs', hfiled'⟩
  · refine (hjobs 0).trans (congrArg Job.ended ((Session.run_compile _ _).1.trans ?_))
    decide +kernel
  · refine (hjobs 1).trans (congrArg Job.ended ((Session.run_compile _ _).1.trans ?_))
    decide +kernel
  · exact (hfiled "p" "//p").mpr (.inr ⟨by decide +kernel, by decide +kernel, 0, ["p", "q:nope"],
      by decide +kernel, by decide +kernel⟩)
  · rw [Fin.sum_univ_four] at hasked
    refine hasked.trans ?_
    decide +kernel

end Batch

end SelectorPath
