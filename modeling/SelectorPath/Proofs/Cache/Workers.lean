/-
Workers do what the jobs of a batch do.

A worker at the lock takes the step of its job, so that whatever is true of the
batches on all schedules is true of selectors that are compiled at once. A schedule
that ends too early makes no difference: the turns it leaves over are turns as well.

* `Worker.turn_finish`: a turn and then all the others, which is all the turns that
  there are.
* `Batch.worker`, `Batch.run_turn`: the worker that stands where a job stands, and
  one turn of it.
* `Batch.run_foldlM_turnOf`, `Batch.run_mapM_finish`: the turns of a schedule, and
  those that it leaves over.
* `Session.run_compileAll`: compiling at once is a batch that comes to its end.
* `Session.compileAll_agrees`: what no schedule changes.
-/
import SelectorPath.Proofs.Cache.Batch

namespace SelectorPath

open XPath

/-! ### Turns, and all turns that are left -/

namespace Worker

/-- A job that goes on with some clauses, to its end. -/
lemma finish_next (more told : List String) :
    finish ⟨.next more told, none⟩ =
      (return (← Session.compileClauses more).map fun xpaths => ⟨told ++ xpaths⟩) := by
  cases more with
  | nil =>
      show pure (Except.ok (Compiled.mk told)) = pure (Except.ok (Compiled.mk (told ++ [])))
      rw [List.append_nil]
  | cons clause more => rfl

/-- A worker that begins and is not disturbed compiles its selector. -/
lemma finish_start (selector : String) :
    finish ⟨.start selector, none⟩ = Session.compile selector := by
  rw [Job.start, Session.compile]
  cases Selector.splitClauses selector with
  | error e => rfl
  | ok clauses => exact finish_next clauses []

/-- After an answer that is a form, the job goes on. -/
lemma finish_heard_ok (xpath : String) (more told : List String) :
    finish ⟨.heard (.ok xpath) more told, none⟩ =
      (return (← Session.compileClauses more).map fun xpaths => ⟨told ++ xpath :: xpaths⟩) := by
  rw [Job.heard, finish_next]
  simp only [List.append_assoc, List.singleton_append]

section Running

variable (clause : String) (more told : List String)

/-- A worker that has nothing to publish compiles its clause and goes on. -/
lemma finish_looking :
    finish ⟨.running clause more told, none⟩ =
      Session.compileClause clause >>= fun result => finish ⟨.heard result more told, none⟩ := by
  simp only [finish, Session.compileClauses, bind_assoc]
  refine congrArg _ (funext fun result => ?_)
  cases result with
  | error e => rfl
  | ok xpath =>
      refine Eq.trans ?_ (finish_heard_ok xpath more told).symm
      simp only [bind_assoc, pure_bind]
      refine congrArg _ (funext fun results => ?_)
      cases results <;> rfl

/-- A worker that has something to publish does so and goes on. -/
lemma finish_publishing (xpath : String) :
    finish ⟨.running clause more told, some xpath⟩ =
      Session.writing (·.publish (Cache.key clause) xpath) >>= fun filed =>
        finish ⟨.heard (.ok filed) more told, none⟩ := by
  simp only [finish_heard_ok]
  rfl

end Running

/-- A worker that has had a turn comes to what it would have come to anyway. -/
lemma turn_finish (w : Worker) : w.turn >>= finish = w.finish := by
  obtain ⟨job, unpublished⟩ := w
  cases job with
  | ended result => cases unpublished <;> rfl
  | running clause more told =>
      cases unpublished with
      | some xpath => simp only [finish_publishing, turn, bind_assoc, pure_bind]
      | none =>
          rw [finish_looking, Session.compileClause, Session.compileClauseAmid, turn]
          simp only [bind_assoc]
          -- both look the clause up, and go on with what was found
          refine congrArg _ (funext fun found => ?_)
          cases found with
          | some xpath => simp only [bind_assoc, pure_bind]
          | none =>
              simp only [bind_assoc]
              refine congrArg _ (funext fun cache => ?_)
              cases Selector.compileClause cache.folding (Cache.key clause) with
              | error e => simp only [pure_bind]
              | ok xpath => simp only [bind_assoc, pure_bind, finish_publishing]

end Worker

/-! ### The workers of a batch -/

namespace Batch

section Turns

variable {ι : Type}

/-- The worker that stands where a job stands. -/
def worker (b : Batch ι) (i : ι) : Worker := ⟨b.jobs i, (b.shared.pending i).map Call.xpath⟩

variable [DecidableEq ι] {f : String → Except Error String} {b : Batch ι} {x : Session}

/-- The turn of a worker is the turn of its job. -/
lemma run_turn (hb : b.Sound f) (hx : x.cache = b.shared.cache) (i : ι) :
    ((b.worker i).turn.run x).1 = (b.step i).worker i ∧
      ((b.worker i).turn.run x).2.cache = (b.step i).shared.cache := by
  cases hjob : b.jobs i with
  | ended result =>
      simp only [worker, step, event?, hjob]
      exact ⟨rfl, hx⟩
  | running clause more told =>
      cases hpending : b.shared.pending i with
      | some call =>
          -- a call that is open is about the clause that its job is at
          obtain ⟨⟨more', told', hcall⟩, -⟩ := hb.calls i call hpending
          obtain ⟨rfl, -, -⟩ := Job.running.inj (hjob.symm.trans hcall)
          obtain ⟨log, hpublish⟩ :=
            Session.run_writing (·.publish (Cache.key call.clause) call.xpath) x
          simp only [worker, Worker.turn, step, event?, hjob, hpending, Option.map_some,
            Session.run_bind, hpublish, Shared.step_publish hpending, Job.hear,
            Function.update_self, hx]
          exact ⟨rfl, rfl⟩
      | none =>
          obtain ⟨log, hlookup⟩ := Session.run_writing (·.lookup (Cache.key clause)) x
          rw [Cache.fst_lookup, hx] at hlookup
          have hfolding := Cache.folding_lookup b.shared.cache (Cache.key clause)
          simp only [worker, Worker.turn, step, event?, hjob, hpending, Option.map_none,
            Session.run_bind, hlookup]
          cases hfiled : b.shared.cache.entries[Cache.key clause]? with
          | some xpath =>
              simp only [Shared.step_lookup_hit hpending hfiled, Job.hear, Function.update_self,
                hpending]
              exact ⟨rfl, rfl⟩
          | none =>
              -- the form is compiled outside the lock, with an option that the lookup left alone
              simp only [Session.run_bind, Session.run_cached, hfolding]
              cases hcompile : Selector.compileClause b.shared.cache.folding (Cache.key clause) with
              | error e =>
                  simp only [Shared.step_lookup_error hpending hfiled hcompile, Job.hear,
                    Function.update_self, hpending]
                  exact ⟨rfl, rfl⟩
              | ok xpath =>
                  simp only [Shared.step_lookup_ok hpending hfiled hcompile, Job.hear,
                    Function.update_self]
                  exact ⟨rfl, rfl⟩

/-- The workers of the other jobs stand where they stood. -/
lemma worker_step_of_ne (hb : b.Sound f) {i j : ι} (hne : j ≠ i) :
    (b.step i).worker j = b.worker j := by
  obtain ⟨hjob, hpending⟩ := step_of_ne hb hne
  rw [worker, worker, hjob, hpending]

/-- A job that is over stays as it is. -/
lemma ended_step (hb : b.Sound f) {i : ι} {result : Except Error Compiled}
    (h : b.jobs i = .ended result) (j : ι) : (b.step j).jobs i = .ended result := by
  by_cases hne : i = j
  · subst hne
    simp only [step, event?, h]
  · rw [(step_of_ne hb hne).1, h]

lemma ended_run (hb : b.Sound f) {i : ι} {result : Except Error Compiled}
    (h : b.jobs i = .ended result) (schedule : List ι) :
    (b.run schedule).jobs i = .ended result := by
  induction schedule generalizing b with
  | nil => exact h
  | cons j schedule ih => exact ih (hb.step j) (ended_step hb h j)

/-- They do so after any number of turns of one worker. -/
lemma worker_run_replicate_of_ne (hb : b.Sound f) {i j : ι} (hne : j ≠ i) (turns : Nat) :
    (b.run (List.replicate turns i)).worker j = b.worker j := by
  induction turns generalizing b with
  | zero => rfl
  | succ turns ih => exact (ih (hb.step i)).trans (worker_step_of_ne hb hne)

/-- A worker that is left to itself takes turns until its job is over. -/
lemma run_finish (hb : b.Sound f) (hx : x.cache = b.shared.cache) (i : ι) :
    ∃ turns, (b.run (List.replicate turns i)).jobs i = .ended ((b.worker i).finish.run x).1 ∧
      ((b.worker i).finish.run x).2.cache = (b.run (List.replicate turns i)).shared.cache := by
  -- on the work that is left: a turn of a job that is not over makes it less
  induction hwork : b.work i using Nat.strong_induction_on generalizing b x with
  | _ work ih =>
      cases hjob : b.jobs i with
      | ended result =>
          refine ⟨0, ?_⟩
          simp only [worker, hjob]
          exact ⟨hjob, hx⟩
      | running clause more told =>
          have hless : (b.step i).work i < work := by
            have hstep := work_step hb i
            have hpos := work_pos hjob
            omega
          obtain ⟨hturn, hcache⟩ := run_turn hb hx i
          obtain ⟨turns, hended, hafter⟩ := ih _ hless (hb.step i) hcache rfl
          refine ⟨turns + 1, ?_⟩
          rw [← Worker.turn_finish, Session.run_bind, hturn]
          exact ⟨hended, hafter⟩

end Turns

/-! ### The turns of a schedule, and those that it leaves over -/

section Lists

variable {n : Nat} {f : String → Except Error String} {b : Batch (Fin n)} {x : Session}

/-- The turns of a schedule that are those of one of the jobs. -/
def turns (n : Nat) (schedule : List Nat) : List (Fin n) :=
  schedule.filterMap fun i => (List.finRange n)[i]?

/-- The workers, in the order of their jobs. -/
def workers (b : Batch (Fin n)) : List Worker := (List.finRange n).map b.worker

/-- Only the worker whose turn it is has to be replaced. -/
lemma workers_step (hb : b.Sound f) (i : Fin n) :
    (b.step i).workers = b.workers.set i.val ((b.step i).worker i) := by
  refine List.ext_getElem (by simp [workers]) fun j hj hj' => ?_
  rw [List.getElem_set]
  by_cases heq : i.val = j
  · subst heq
    simp [workers]
  · have hne : (⟨j, by simpa [workers] using hj⟩ : Fin n) ≠ i := fun h =>
      heq (congrArg Fin.val h).symm
    simpa [workers, heq] using worker_step_of_ne hb hne

/-- A turn in a row of workers is a turn of the batch, or none if there is no such worker. -/
lemma run_turnOf (hb : b.Sound f) (hx : x.cache = b.shared.cache) (i : Nat) :
    ((Session.turnOf b.workers i).run x).1 = (b.run (turns n [i])).workers ∧
      ((Session.turnOf b.workers i).run x).2.cache = (b.run (turns n [i])).shared.cache := by
  -- the row is as long as there are jobs, so a number beyond it is a turn of neither
  have hfound : b.workers[i]? = (List.finRange n)[i]?.map b.worker := List.getElem?_map
  cases hi : (List.finRange n)[i]? with
  | none =>
      rw [hi] at hfound
      simp only [turns, List.filterMap_cons, hi, Session.turnOf, hfound]
      exact ⟨rfl, hx⟩
  | some j =>
      obtain rfl : j.val = i := by
        obtain ⟨hlt, rfl⟩ := List.getElem?_eq_some_iff.mp hi
        rw [List.getElem_finRange, Fin.val_cast]
      rw [hi, Option.map_some] at hfound
      obtain ⟨hturn, hcache⟩ := run_turn hb hx j
      have hworkers := workers_step hb j
      rw [← hturn] at hworkers
      simp only [turns, List.filterMap_cons, hi, Session.turnOf, hfound]
      exact ⟨hworkers.symm, hcache⟩

/-- The turns of a schedule are turns of the batch. -/
lemma run_foldlM_turnOf (hb : b.Sound f) (hx : x.cache = b.shared.cache) (schedule : List Nat) :
    ((schedule.foldlM Session.turnOf b.workers).run x).1 = (b.run (turns n schedule)).workers ∧
      ((schedule.foldlM Session.turnOf b.workers).run x).2.cache =
        (b.run (turns n schedule)).shared.cache := by
  induction schedule generalizing b x with
  | nil => exact ⟨rfl, hx⟩
  | cons i schedule ih =>
      obtain ⟨hworkers, hcache⟩ := run_turnOf hb hx i
      have hrest := ih (conserves_run hb (turns n [i])).sound hcache
      have hturns : b.run (turns n (i :: schedule)) =
          (b.run (turns n [i])).run (turns n schedule) := by
        rw [turns, ← List.singleton_append, List.filterMap_append]
        exact List.foldl_append
      rw [List.foldlM_cons, Session.run_bind, hworkers, hturns]
      exact hrest

/-- Jobs that have results are over. -/
lemma hasEnded_of_results {results : List (Except Error Compiled)}
    (h : results.map Job.ended = (List.finRange n).map b.jobs) : b.HasEnded := by
  intro i
  have hmem : b.jobs i ∈ (List.finRange n).map b.jobs := List.mem_map_of_mem (List.mem_finRange i)
  rw [← h] at hmem
  obtain ⟨result, -, hresult⟩ := List.mem_map.mp hmem
  exact ⟨result, hresult.symm⟩

/-- The turns that are left are turns of the batch as well, after which the jobs are
over. -/
lemma run_mapM_finish (hb : b.Sound f) (hx : x.cache = b.shared.cache) {is : List (Fin n)}
    (hnodup : is.Nodup) :
    ∃ rest, (((is.map b.worker).mapM Worker.finish).run x).1.map Job.ended =
        is.map (b.run rest).jobs ∧
      (((is.map b.worker).mapM Worker.finish).run x).2.cache = (b.run rest).shared.cache := by
  induction is generalizing b x with
  | nil => exact ⟨[], rfl, hx⟩
  | cons i is ih =>
      obtain ⟨hi, hnodup⟩ := List.nodup_cons.mp hnodup
      obtain ⟨turns, hended, hcache⟩ := run_finish hb hx i
      have hsound := (conserves_run hb (List.replicate turns i)).sound
      obtain ⟨rest, hjobs, hafter⟩ := ih hsound hcache hnodup
      -- the turns of the first worker leave the others as they are
      have hothers : is.map (b.run (List.replicate turns i)).worker = is.map b.worker :=
        List.map_congr_left fun j hj =>
          worker_run_replicate_of_ne hb (ne_of_mem_of_not_mem hj hi) turns
      have hrun : b.run (List.replicate turns i ++ rest) =
          (b.run (List.replicate turns i)).run rest := List.foldl_append
      rw [hothers] at hjobs hafter
      refine ⟨List.replicate turns i ++ rest, ?_, ?_⟩
      · rw [hrun, List.map_cons, List.map_cons, ended_run hsound hended rest, ← hjobs,
          List.mapM_cons]
        rfl
      · rw [hrun, List.map_cons, List.mapM_cons]
        exact hafter

end Lists

end Batch

/-! ### Compiling at once -/

namespace Session

/-- Without a schedule the selectors are compiled in order. -/
theorem compileAll_nil (selectors : List String) :
    compileAll [] selectors = selectors.mapM compile := by
  rw [compileAll, List.foldlM_nil, pure_bind, List.mapM_map]
  exact congrArg (selectors.mapM ·) (funext Worker.finish_start)

variable (schedule : List Nat) (x : Session)

/-- Compiling at once is a batch that comes to its end, with turns that begin as the
schedule says. -/
theorem run_compileAll {n : Nat} (selectors : Fin n → String) : ∃ rest,
    let b := (Batch.start x.cache selectors).run (Batch.turns n schedule ++ rest)
    b.HasEnded ∧
      ((compileAll schedule (List.ofFn selectors)).run x).1.map Job.ended = List.ofFn b.jobs ∧
      ((compileAll schedule (List.ofFn selectors)).run x).2.cache = b.shared.cache := by
  have hstart : (List.ofFn selectors).map (fun selector => Worker.mk (.start selector) none) =
      (Batch.start x.cache selectors).workers := by
    rw [List.map_ofFn, List.ofFn_eq_map]
    rfl
  have hbegun := Batch.sound_start x.cache selectors
  obtain ⟨hworkers, hcache⟩ := Batch.run_foldlM_turnOf hbegun rfl schedule
  obtain ⟨rest, hjobs, hafter⟩ := Batch.run_mapM_finish
    (Batch.conserves_run hbegun (Batch.turns n schedule)).sound hcache (List.nodup_finRange n)
  have hrun : (Batch.start x.cache selectors).run (Batch.turns n schedule ++ rest) =
      ((Batch.start x.cache selectors).run (Batch.turns n schedule)).run rest :=
    List.foldl_append
  refine ⟨rest, ?_⟩
  rw [compileAll, hstart, run_bind, hworkers, hrun]
  exact ⟨Batch.hasEnded_of_results hjobs, hjobs.trans List.ofFn_eq_map.symm, hafter⟩

/-- **Only the split into hits and misses depends on the schedule.** The results, the
contents and the number of questions are those of compiling the selectors in order. -/
theorem compileAll_agrees (selectors : List String) :
    let atOnce := (compileAll schedule selectors).run x
    let inOrder := (selectors.mapM compile).run x
    atOnce.1 = inOrder.1 ∧ atOnce.2.cache.entries = inOrder.2.cache.entries ∧
      atOnce.2.cache.hits + atOnce.2.cache.misses =
        inOrder.2.cache.hits + inOrder.2.cache.misses := by
  intro atOnce inOrder
  obtain ⟨n, selector, rfl⟩ : ∃ n, ∃ selector : Fin n → String, selectors = List.ofFn selector :=
    ⟨_, selectors.get, (List.ofFn_get selectors).symm⟩
  obtain ⟨rest, hended, hjobs, hcache⟩ := run_compileAll schedule x selector
  obtain ⟨hresults, hafter⟩ : inOrder.1 = _ ∧ inOrder.2.cache = _ := run_mapM_compile _ x
  refine ⟨?_, ?_, ?_⟩
  · -- the answers of the cache at first are the results, with any schedule
    refine List.map_injective_iff.mpr (fun r r' => Job.ended.inj) (hjobs.trans ?_)
    rw [hresults, List.map_ofFn, List.map_ofFn]
    refine congrArg List.ofFn (funext fun i => ?_)
    obtain ⟨result, hresult⟩ := hended i
    rw [hresult, Batch.eq_of_ended _ _ hresult]
    rfl
  · refine Entries.ext_filed fun k xpath => ?_
    rw [hafter, Cache.filed_settleAll_iff, hcache, Batch.filed_of_ended _ _ hended]
    simp [List.mem_flatMap]
  · rw [hcache, hafter, Cache.count_settleAll, List.length_flatMap, List.map_ofFn, List.sum_ofFn]
    exact Batch.asked_of_ended _ _ hended

-- both workers look the clause up before either publishes it, or one after the other
example : ((compileAll [0, 1] ["p", "p"]).run { cache := .empty .ascii }).2.cache.stats =
    ⟨0, 2, 1⟩ := by decide +kernel

example : ((compileAll [] ["p", "p"]).run { cache := .empty .ascii }).2.cache.stats =
    ⟨1, 1, 1⟩ := by decide +kernel

end Session

end SelectorPath
