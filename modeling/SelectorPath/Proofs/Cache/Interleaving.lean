/-
A cache that any number of clients use at once.

A client that compiles a clause takes the lock once to look the clause up and,
if it has to be compiled, once more to publish it. In between the others may
take any steps. Every other use takes the lock once.

* `Shared`, `Shared.step`, `Shared.run`: the cache with the calls under way,
  one step under the lock, and the steps in any order.
* `Shared.compileClauseAmid_eq_steps`: compiling a clause amid others is a
  lookup, the others, and a publication.
* `Shared.filed_of_seen`: what a client is told is what is filed right then.
* `Shared.extends_step`, `Shared.pairwise_extends`: steps that drop nothing
  leave what is filed as it is.
* `Shared.published_is_final`: the clients agree, whatever the order of their
  steps.
-/
import Mathlib.Logic.Function.Basic
import SelectorPath.Cache.Session
import SelectorPath.Proofs.Cache.Contents

namespace SelectorPath

open Entries (Extends)

/-! ### Compiling amid others, step by step -/

namespace Session

lemma run_bind {α β : Type} (action : Action α) (next : α → Action β) (s : Session) :
    (action >>= next).run s = (next (action.run s).1).run (action.run s).2 := rfl

lemma run_cached (s : Session) : cached.run s = (s.cache, s) := rfl

lemma run_record (r : Record) (s : Session) :
    (record r).run s = ((), { s with log := s.log ++ [r] }) := rfl

/-- What is done under the lock is done to the cache. -/
lemma run_writing {α : Type} (f : Cache → α × Cache) (s : Session) :
    ∃ log, (writing f).run s = ((f s.cache).1, ⟨(f s.cache).2, s.poisoned, log⟩) := by
  obtain ⟨cache, poisoned, log⟩ := s
  cases poisoned with
  | false => exact ⟨log, rfl⟩
  | true => exact ⟨log ++ [.recovered], rfl⟩

/-- The state of the lock concerns the records only. -/
lemma cache_writing {α : Type} (f : Cache → α × Cache) (s : Session) :
    ((writing f).run s).1 = (f s.cache).1 ∧ ((writing f).run s).2.cache = (f s.cache).2 := by
  obtain ⟨log, hrun⟩ := run_writing f s
  rw [hrun]
  exact ⟨rfl, rfl⟩

/-- Reading is writing back what was read. -/
lemma cache_reading {α : Type} (f : Cache → α) (s : Session) :
    ((reading f).run s).1 = f s.cache ∧ ((reading f).run s).2.cache = s.cache :=
  cache_writing (fun c => (f c, c)) s

variable (others : Action Unit) {clause xpath : String} {s : Session}

/-- A clause that is there is told, and others do not come in between. -/
lemma compileClauseAmid_of_hit (hfound : s.cache.entries[Cache.key clause]? = some xpath) :
    ((compileClauseAmid others clause).run s).1 = .ok xpath ∧
      ((compileClauseAmid others clause).run s).2.cache =
        (s.cache.lookup (Cache.key clause)).2 := by
  obtain ⟨log, hlookup⟩ := run_writing (·.lookup (Cache.key clause)) s
  rw [Cache.fst_lookup, hfound] at hlookup
  rw [compileClauseAmid, run_bind, hlookup]
  exact ⟨rfl, rfl⟩

/-- A clause that does not compile is not published, and others do not come in between
either. -/
lemma compileClauseAmid_of_error {e : Error}
    (hmiss : s.cache.entries[Cache.key clause]? = none)
    (herror : Selector.compileClause s.cache.folding (Cache.key clause) = .error e) :
    ((compileClauseAmid others clause).run s).1 = .error e ∧
      ((compileClauseAmid others clause).run s).2.cache =
        (s.cache.lookup (Cache.key clause)).2 := by
  obtain ⟨log, hlookup⟩ := run_writing (·.lookup (Cache.key clause)) s
  rw [Cache.fst_lookup, hmiss] at hlookup
  rw [← Cache.folding_lookup s.cache (Cache.key clause)] at herror
  rw [compileClauseAmid, run_bind, hlookup]
  dsimp only
  rw [run_bind, run_cached]
  dsimp only
  rw [herror]
  exact ⟨rfl, rfl⟩

/-- The others find the cache as the lookup left it, and what they leave is
what the compiled form is published in. -/
lemma compileClauseAmid_of_ok (hmiss : s.cache.entries[Cache.key clause]? = none)
    (hok : Selector.compileClause s.cache.folding (Cache.key clause) = .ok xpath) :
    ∃ t : Session, t.cache = (s.cache.lookup (Cache.key clause)).2 ∧
      ((compileClauseAmid others clause).run s).1 =
        .ok ((others.run t).2.cache.publish (Cache.key clause) xpath).1 ∧
      ((compileClauseAmid others clause).run s).2.cache =
        ((others.run t).2.cache.publish (Cache.key clause) xpath).2 := by
  obtain ⟨log, hlookup⟩ := run_writing (·.lookup (Cache.key clause)) s
  rw [Cache.fst_lookup, hmiss] at hlookup
  rw [← Cache.folding_lookup s.cache (Cache.key clause)] at hok
  obtain ⟨t, ht⟩ : ∃ t : Session, t = ⟨(s.cache.lookup (Cache.key clause)).2, s.poisoned,
    log ++ [.compiled (Cache.key clause) xpath]⟩ := ⟨_, rfl⟩
  obtain ⟨log', hpublish⟩ := run_writing (·.publish (Cache.key clause) xpath) (others.run t).2
  refine ⟨t, by rw [ht], ?_⟩
  rw [compileClauseAmid, run_bind, hlookup]
  dsimp only
  rw [run_bind, run_cached]
  dsimp only
  rw [hok]
  dsimp only
  rw [run_bind, run_bind, run_bind, run_record]
  dsimp only
  rw [← ht, hpublish]
  exact ⟨rfl, rfl⟩

end Session

/-! ### Steps under the lock -/

/-- A call that has compiled its clause and not yet published it. -/
structure Call where
  /-- The clause, as it was given. -/
  clause : String
  /-- Its compiled form. -/
  xpath : String

/-- A cache and, for each client, its call under way. -/
structure Shared (ι : Type) where
  /-- The cache. -/
  cache : Cache
  /-- The calls between their two steps. -/
  pending : ι → Option Call

/-- What can happen under the lock. -/
inductive Event (ι : Type) where
  /-- A client begins to compile a clause: the first step of its call. -/
  | lookup (client : ι) (clause : String)
  /-- A client publishes what it has compiled: the second step of its call. -/
  | publish (client : ι)
  /-- A clause is looked for. -/
  | find (clause : String)
  /-- Pairs are added where their keys are new. -/
  | extend (pairs : List (String × String))
  /-- The contents are replaced. -/
  | replace (pairs : List (String × String))
  /-- The cache is emptied. -/
  | clear

/-- The events after which something may be gone. -/
def Event.drops {ι : Type} : Event ι → Bool
  | .replace _ | .clear => true
  | _ => false

/-- What is answered. -/
inductive Answer where
  /-- A call to compile a clause is over. -/
  | compiled (clause : String) (result : Except Error String)
  /-- A clause was looked for. -/
  | found (clause : String) (xpath : Option String)
  /-- Pairs were added. -/
  | added (n : Nat)
  /-- There is nothing to tell. -/
  | silent

/-- The key that an answer is about and the compiled form that it tells, if it
tells one. -/
def Answer.seen : Answer → Option (String × String)
  | .compiled clause (.ok xpath) | .found clause (some xpath) => some (Cache.key clause, xpath)
  | _ => none

namespace Shared

variable {ι : Type} [DecidableEq ι]

/-- One step. A client that is busy begins no other call, and one that has
compiled nothing publishes nothing. -/
def step (w : Shared ι) : Event ι → Answer × Shared ι
  | .lookup client clause =>
    match w.pending client with
    | some _ => (.silent, w)
    | none =>
      let k := Cache.key clause
      let looked := w.cache.lookup k
      match looked.1 with
      | some xpath => (.compiled clause (.ok xpath), { w with cache := looked.2 })
      | none =>
        match Selector.compileClause looked.2.folding k with
        | .error e => (.compiled clause (.error e), { w with cache := looked.2 })
        | .ok xpath =>
          (.silent, ⟨looked.2, Function.update w.pending client (some ⟨clause, xpath⟩)⟩)
  | .publish client =>
    match w.pending client with
    | none => (.silent, w)
    | some call =>
      let published := w.cache.publish (Cache.key call.clause) call.xpath
      (.compiled call.clause (.ok published.1),
        ⟨published.2, Function.update w.pending client none⟩)
  | .find clause => (.found clause (w.cache.find? clause), w)
  | .extend pairs => (.added (w.cache.extend pairs).1, { w with cache := (w.cache.extend pairs).2 })
  | .replace pairs => (.silent, { w with cache := w.cache.replace pairs })
  | .clear => (.silent, { w with cache := w.cache.clear })

/-- Steps in the order in which the lock is taken: after each its answer, and
how things stand then. -/
def run (w : Shared ι) : List (Event ι) → List (Answer × Shared ι)
  | [] => []
  | event :: events => w.step event :: run (w.step event).2 events

/-- How things stand after some steps. -/
def after (w : Shared ι) (events : List (Event ι)) : Shared ι :=
  events.foldl (fun w event => (w.step event).2) w

/-! ### What one step does -/

section Step

variable {w : Shared ι} {client : ι} {clause : String}

lemma step_lookup_hit {xpath : String} (hidle : w.pending client = none)
    (hfound : w.cache.entries[Cache.key clause]? = some xpath) :
    w.step (.lookup client clause) =
      (.compiled clause (.ok xpath),
        { w with cache := (w.cache.lookup (Cache.key clause)).2 }) := by
  simp only [step, hidle, Cache.fst_lookup, hfound]

lemma step_lookup_error {e : Error} (hidle : w.pending client = none)
    (hmiss : w.cache.entries[Cache.key clause]? = none)
    (herror : Selector.compileClause w.cache.folding (Cache.key clause) = .error e) :
    w.step (.lookup client clause) =
      (.compiled clause (.error e),
        { w with cache := (w.cache.lookup (Cache.key clause)).2 }) := by
  simp only [step, hidle, Cache.fst_lookup, hmiss, Cache.folding_lookup, herror]

/-- A clause that was compiled is under way until it is published. -/
lemma step_lookup_ok {xpath : String} (hidle : w.pending client = none)
    (hmiss : w.cache.entries[Cache.key clause]? = none)
    (hok : Selector.compileClause w.cache.folding (Cache.key clause) = .ok xpath) :
    w.step (.lookup client clause) =
      (.silent, ⟨(w.cache.lookup (Cache.key clause)).2,
        Function.update w.pending client (some ⟨clause, xpath⟩)⟩) := by
  simp only [step, hidle, Cache.fst_lookup, hmiss, Cache.folding_lookup, hok]

/-- All that a lookup can do. The contents stay, and what is told is filed. -/
lemma of_step_lookup (w : Shared ι) (client : ι) (clause : String) :
    (w.step (.lookup client clause)).2.cache.entries = w.cache.entries ∧
      ∀ k xpath, (w.step (.lookup client clause)).1.seen = some (k, xpath) →
        w.cache.entries[k]? = some xpath := by
  cases hpending : w.pending client with
  | some call => simp [step, hpending, Answer.seen]
  | none =>
      cases hfound : w.cache.entries[Cache.key clause]? with
      | some xpath =>
          rw [step_lookup_hit hpending hfound]
          refine ⟨Cache.entries_lookup _ _, fun k xpath' h => ?_⟩
          obtain ⟨rfl, rfl⟩ : Cache.key clause = k ∧ xpath = xpath' := by
            simpa [Answer.seen] using h
          exact hfound
      | none =>
          cases hcompile : Selector.compileClause w.cache.folding (Cache.key clause) with
          | error e =>
              rw [step_lookup_error hpending hfound hcompile]
              exact ⟨Cache.entries_lookup _ _, fun k xpath h => by simp [Answer.seen] at h⟩
          | ok xpath =>
              rw [step_lookup_ok hpending hfound hcompile]
              exact ⟨Cache.entries_lookup _ _, fun k xpath h => by simp [Answer.seen] at h⟩

/-- Publishing ends the call with what is filed by then. -/
lemma step_publish {call : Call} (hcall : w.pending client = some call) :
    w.step (.publish client) =
      (.compiled call.clause (.ok (w.cache.publish (Cache.key call.clause) call.xpath).1),
        ⟨(w.cache.publish (Cache.key call.clause) call.xpath).2,
          Function.update w.pending client none⟩) := by
  simp only [step, hcall]

/-- Compiling a clause amid others is the two steps of a call with the others
in between, or the first step alone if it ends the call. -/
theorem compileClauseAmid_eq_steps (others : Session.Action Unit) (clause : String) {s : Session}
    {w : Shared ι} {client : ι} (hcache : w.cache = s.cache) (hidle : w.pending client = none) :
    let result := (Session.compileClauseAmid others clause).run s
    let begun := w.step (.lookup client clause)
    match begun.2.pending client with
    | none => begun.1 = .compiled clause result.1 ∧ begun.2.cache = result.2.cache
    | some _ => ∃ t : Session, t.cache = begun.2.cache ∧
        let ended := step ⟨(others.run t).2.cache, begun.2.pending⟩ (.publish client)
        ended.1 = .compiled clause result.1 ∧ ended.2.cache = result.2.cache := by
  cases hfound : w.cache.entries[Cache.key clause]? with
  | some xpath =>
      rw [step_lookup_hit hidle hfound]
      rw [hcache] at hfound
      obtain ⟨hresult, hafter⟩ := Session.compileClauseAmid_of_hit others hfound
      simp only [hidle, hresult, hafter, hcache, and_self]
  | none =>
      cases hcompile : Selector.compileClause w.cache.folding (Cache.key clause) with
      | error e =>
          rw [step_lookup_error hidle hfound hcompile]
          rw [hcache] at hfound hcompile
          obtain ⟨hresult, hafter⟩ := Session.compileClauseAmid_of_error others hfound hcompile
          simp only [hidle, hresult, hafter, hcache, and_self]
      | ok xpath =>
          rw [step_lookup_ok hidle hfound hcompile]
          rw [hcache] at hfound hcompile
          obtain ⟨t, ht, hresult, hafter⟩ := Session.compileClauseAmid_of_ok others hfound hcompile
          simp only [Function.update_self]
          refine ⟨t, by rw [ht, hcache], ?_⟩
          rw [step_publish (Function.update_self client _ _), hresult, hafter]
          exact ⟨rfl, rfl⟩

/-- What a client is told is what is filed right then. -/
lemma filed_of_seen {event : Event ι} {k xpath : String}
    (h : (w.step event).1.seen = some (k, xpath)) :
    (w.step event).2.cache.entries[k]? = some xpath := by
  cases event with
  | lookup client clause =>
      obtain ⟨hentries, hseen⟩ := of_step_lookup w client clause
      rw [hentries]
      exact hseen k xpath h
  | publish client =>
      cases hcall : w.pending client with
      | none => simp [step, hcall, Answer.seen] at h
      | some call =>
          -- what is told is what is filed, even where another form was there first
          rw [step_publish hcall] at h ⊢
          obtain ⟨rfl, rfl⟩ : Cache.key call.clause = k ∧
              (w.cache.publish (Cache.key call.clause) call.xpath).1 = xpath := by
            simpa [Answer.seen] using h
          exact Cache.getElem?_publish_self w.cache _ _
  | find clause =>
      cases hfound : w.cache.find? clause with
      | none => simp [step, hfound, Answer.seen] at h
      | some xpath' =>
          obtain ⟨rfl, rfl⟩ : Cache.key clause = k ∧ xpath' = xpath := by
            simpa [step, hfound, Answer.seen] using h
          exact hfound
  | extend pairs => simp [step, Answer.seen] at h
  | replace pairs => simp [step, Answer.seen] at h
  | clear => simp [step, Answer.seen] at h

/-- A step that drops nothing leaves what is filed as it is. -/
lemma extends_step (w : Shared ι) {event : Event ι} (h : event.drops = false) :
    Extends (w.step event).2.cache.entries w.cache.entries := by
  cases event with
  | lookup client clause =>
      rw [(of_step_lookup w client clause).1]
      exact Extends.refl _
  | publish client =>
      cases hcall : w.pending client with
      | none =>
          simp only [step, hcall]
          exact Extends.refl _
      | some call =>
          rw [step_publish hcall]
          exact Cache.extends_publish w.cache _ _
  | find clause => exact Extends.refl _
  | extend pairs => exact Cache.extends_extend w.cache pairs
  | replace pairs => simp [Event.drops] at h
  | clear => simp [Event.drops] at h

end Step

/-! ### Runs -/

/-- What clients are told along a run is what is filed right then. -/
lemma filed_of_mem_run {w : Shared ι} {events : List (Event ι)} {m : Answer × Shared ι}
    (hm : m ∈ w.run events) {k xpath : String} (h : m.1.seen = some (k, xpath)) :
    m.2.cache.entries[k]? = some xpath := by
  induction events generalizing w with
  | nil => simp [run] at hm
  | cons event events ih =>
      rw [run] at hm
      rcases List.mem_cons.mp hm with rfl | hm
      · exact filed_of_seen h
      · exact ih hm

/-- Of two moments of a run that drops nothing, the later one has everything
that the earlier one has. -/
lemma pairwise_extends {w : Shared ι} {events : List (Event ι)}
    (hkeep : ∀ event ∈ events, event.drops = false) :
    (w :: (w.run events).map Prod.snd).Pairwise
      fun t t' => Extends t'.cache.entries t.cache.entries := by
  induction events generalizing w with
  | nil => exact List.pairwise_singleton _ _
  | cons event events ih =>
      have hstep := extends_step w (hkeep event List.mem_cons_self)
      have hrest := ih (w := (w.step event).2) fun e he => hkeep e (List.mem_cons_of_mem event he)
      rw [run, List.map_cons]
      refine List.pairwise_cons.mpr ⟨fun t ht => ?_, hrest⟩
      rcases List.mem_cons.mp ht with rfl | ht
      · exact hstep
      · exact ((List.pairwise_cons.mp hrest).1 t ht).trans hstep

/-- At any two moments of such a run a key has the same form, if it has one. -/
lemma filed_unique {w : Shared ι} {events : List (Event ι)}
    (hkeep : ∀ event ∈ events, event.drops = false) :
    ∀ t ∈ (w.run events).map Prod.snd, ∀ t' ∈ (w.run events).map Prod.snd,
      ∀ k xpath xpath' : String, t.cache.entries[k]? = some xpath →
        t'.cache.entries[k]? = some xpath' → xpath = xpath' := by
  have hpairs := (List.pairwise_cons.mp (pairwise_extends (w := w) hkeep)).2
  have hsame : ∀ {t t' : Shared ι}, Extends t'.cache.entries t.cache.entries →
      ∀ k xpath xpath' : String, t.cache.entries[k]? = some xpath →
        t'.cache.entries[k]? = some xpath' → xpath = xpath' :=
    fun hextends k xpath _ h h' => Option.some.inj ((hextends k xpath h).symm.trans h')
  intro t ht t' ht'
  refine List.Pairwise.forall_of_forall_of_flip ?_ (hpairs.imp hsame) (hpairs.imp ?_) ht ht'
  · exact fun t _ => hsame (Extends.refl _)
  · exact fun hextends k xpath xpath' h h' => (hsame hextends k xpath' xpath h' h).symm

/-- **Published forms are final.** Whatever is filed at the beginning, and in
whatever order any number of clients take their steps: what a call or a search
tells is filed right then; no key is ever filed twice; and in a stretch that
drops nothing what is filed stays as it is, so that all clients are told the
same of one clause, even if another form of it was added between the two steps
of a call. -/
theorem published_is_final (w : Shared ι) (events : List (Event ι)) :
    (∀ m ∈ w.run events, ∀ k xpath, m.1.seen = some (k, xpath) →
      m.2.cache.entries[k]? = some xpath) ∧
    (∀ before stretch later, events = before ++ stretch ++ later →
      (∀ event ∈ stretch, event.drops = false) →
        (w.after before :: ((w.after before).run stretch).map Prod.snd).Pairwise
          (fun t t' => Extends t'.cache.entries t.cache.entries) ∧
        ∀ m ∈ (w.after before).run stretch, ∀ m' ∈ (w.after before).run stretch,
          ∀ k xpath xpath', m.1.seen = some (k, xpath) → m'.1.seen = some (k, xpath') →
            xpath = xpath') ∧
    ∀ t ∈ w :: (w.run events).map Prod.snd, (t.cache.pairs.map Prod.fst).Nodup := by
  refine ⟨?_, ?_, ?_⟩
  · intro m hm k xpath h
    exact filed_of_mem_run hm h
  · intro before stretch later _ hkeep
    refine ⟨pairwise_extends hkeep, ?_⟩
    intro m hm m' hm' k xpath xpath' h h'
    exact filed_unique hkeep m.2 (List.mem_map_of_mem hm) m'.2 (List.mem_map_of_mem hm')
      k xpath xpath' (filed_of_mem_run hm h) (filed_of_mem_run hm' h')
  · intro t _
    exact t.cache.nodup_keys

/-- Two clients compile one clause, and another form of it is added before
either publishes its own: both are told the added form, and so is everyone
after them, until the cache is emptied. -/
theorem published_is_final_rival :
    let w : Shared Nat := ⟨.empty .ascii, fun _ => none⟩
    let before : List (Event Nat) := [.replace [("p", "//old")], .find "p", .clear]
    let stretch : List (Event Nat) := [.lookup 0 " p", .lookup 1 "p ", .extend [("p", "//rival")],
      .publish 1, .find "p", .publish 0, .lookup 2 "p"]
    ((w.after before).run stretch).map (·.1.seen) = [none, none, none, some ("p", "//rival"),
        some ("p", "//rival"), some ("p", "//rival"), some ("p", "//rival")] ∧
      (∀ event ∈ stretch, event.drops = false) ∧
        ∀ m ∈ (w.after before).run stretch, ∀ m' ∈ (w.after before).run stretch,
          ∀ k xpath xpath', m.1.seen = some (k, xpath) → m'.1.seen = some (k, xpath') →
            xpath = xpath' := by
  intro w before stretch
  have hkeep : ∀ event ∈ stretch, event.drops = false := by decide
  refine ⟨by decide +kernel, hkeep, ?_⟩
  exact ((published_is_final w (before ++ stretch ++ [.clear])).2.1
    before stretch [.clear] rfl hkeep).2

end Shared

end SelectorPath
