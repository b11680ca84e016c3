/-
Hits and misses, counted exactly.

* `Cache.misses_settleAll`: every miss has filed a form or was a failure.
* `Session.Op.lookups`: the keys that a compilation asks a cache for, as long as
  nothing but compiled forms is filed there.
* `Session.cache_after`: a history of compilations is the asking for these keys,
  one after the other.
* `Session.Grows`: uses after which everything filed is still filed, in the same
  form; all are such but the two that drop contents (`Session.grows_perform`).
* `Session.step_compile_of_filed`: a selector whose clauses are filed.
* `Session.lookups_are_accounted`: the figures after any history of
  compilations, and after a compilation that is made again.
-/
import SelectorPath.Proofs.Cache.Answers

namespace SelectorPath

open XPath
open Entries (Extends size_insert_of_missing)

/-! ### Misses -/

namespace Cache

/-- A miss files a form or is a failure. -/
lemma misses_settle (c : Cache) (k : String) :
    (c.settle k).misses + c.size =
      c.misses + (c.settle k).size + [k].countP fun k => !(c.answer k).isOk := by
  rw [List.countP_singleton, size, size]
  obtain ⟨xpath, -, hanswer, h⟩ | ⟨xpath, hmiss, hanswer, h⟩ | ⟨e, -, hanswer, h⟩ :=
    c.settle_cases k
  · simp [h, Error.isOk_of_eq_ok hanswer]
  · simp only [h, size_insert_of_missing hmiss, Error.isOk_of_eq_ok hanswer]
    simp
    omega
  · simp [h, Error.not_isOk_of_eq_error hanswer]
    omega

/-- A lookup misses for a new entry or for a failure, and for nothing else. -/
lemma misses_settleAll (c : Cache) (ks : List String) :
    (c.settleAll ks).misses + c.size =
      c.misses + (c.settleAll ks).size + ks.countP fun k => !(c.answer k).isOk := by
  induction ks generalizing c with
  | nil => rfl
  | cons k ks ih =>
      have hfirst := c.misses_settle k
      have hrest := ih (c.settle k)
      rw [answer_settle] at hrest
      rw [settleAll_cons, ← List.singleton_append, List.countP_append]
      omega

/-- An empty cache tells what a clause compiles to. -/
lemma answer_empty (folding : Folding) :
    (empty folding).answer = Selector.compileClause folding := by
  funext k
  exact answer_of_missing Std.ExtTreeMap.getElem?_empty

/-- What a cache holds that was empty: the different keys asked for that
compile. -/
lemma size_settleAll_empty (folding : Folding) (ks : List String) :
    ((empty folding).settleAll ks).size =
      (ks.filter fun k => (Selector.compileClause folding k).isOk).dedup.length := by
  refine size_eq_length_dedup fun k => ?_
  rw [Std.ExtTreeMap.mem_iff_isSome_getElem?, Option.isSome_iff_exists, List.mem_filter]
  constructor
  · rintro ⟨xpath, h⟩
    rcases (filed_settleAll_iff _ ks k xpath).mp h with hold | ⟨hmem, htold⟩
    · simp [empty] at hold
    · rw [answer_empty] at htold
      exact ⟨hmem, Error.isOk_of_eq_ok htold⟩
  · rintro ⟨hmem, hok⟩
    cases htold : Selector.compileClause folding k with
    | error e => exact absurd hok (Error.not_isOk_of_eq_error htold)
    | ok xpath =>
        rw [← answer_empty] at htold
        exact ⟨xpath, (filed_settleAll_iff _ ks k xpath).mpr (.inr ⟨hmem, htold⟩)⟩

/-- What has been told is filed beside what was there. -/
lemma extends_settleAll (c : Cache) (ks : List String) :
    Extends (c.settleAll ks).entries c.entries :=
  fun k xpath h => (c.filed_settleAll_iff ks k xpath).mpr (.inl h)

/-- If all keys are filed, they are found. -/
lemma settleAll_of_filed {c : Cache} {ks xpaths : List String}
    (h : List.Forall₂ (fun k xpath => c.entries[k]? = some xpath) ks xpaths) :
    c.settleAll ks = { c with hits := c.hits + ks.length } := by
  induction ks generalizing c xpaths with
  | nil => rfl
  | cons k' ks ih =>
      obtain ⟨xpath, xpaths, hxpath, hxpaths, -⟩ := List.forall₂_cons_left_iff.mp h
      have hsettle : c.settle k' = { c with hits := c.hits + 1 } := by
        obtain ⟨_, -, -, hk⟩ | ⟨_, hmiss, -⟩ | ⟨_, hmiss, -⟩ := c.settle_cases k'
        · exact hk
        · simp [hxpath] at hmiss
        · simp [hxpath] at hmiss
      have hfiled : List.Forall₂ (fun k xpath => (c.settle k').entries[k]? = some xpath)
          ks xpaths := by
        rw [hsettle]
        exact hxpaths
      have hrest := ih hfiled
      rw [settleAll_cons, hrest, hsettle, List.length_cons, Nat.add_right_comm, Nat.add_assoc]

end Cache

namespace Session

/-! ### Histories of compilations -/

/-- The session after some uses. -/
def after (s : Session) (ops : List Op) : Session := ops.foldl (fun s op => (s.step op).2) s

/-- The uses that compile one selector or one clause. -/
def Op.isCompilation : Op → Bool
  | .compile _ | .compileClause _ => true
  | _ => false

/-- The keys that a compilation asks for, if each of them tells what it compiles
to: the key of a clause, or the clauses of a selector up to the first that
fails. -/
def Op.lookups (folding : Folding) : Op → List String
  | .compile selector => Selector.asks (Selector.compileClause folding) selector
  | .compileClause clause => [Cache.key clause]
  | _ => []

variable {folding : Folding}

/-- A compilation leaves the cache with the answers that it needed. -/
lemma cache_step {s : Session} (hs : s.cache.answer = Selector.compileClause folding) {op : Op}
    (h : op.isCompilation) : (s.step op).2.cache = s.cache.settleAll (op.lookups folding) := by
  cases op with
  | compile selector =>
      rw [(step_compile selector s).2, hs]
      rfl
  | compileClause clause => exact (run_compileClause clause { s with log := [] }).2
  | _ => simp [Op.isCompilation] at h

/-- A history of compilations is the asking for their keys. -/
lemma cache_after {s : Session} (hs : s.cache.answer = Selector.compileClause folding)
    {ops : List Op} (h : ∀ op ∈ ops, op.isCompilation) :
    (s.after ops).cache = s.cache.settleAll (ops.flatMap (Op.lookups folding)) := by
  induction ops generalizing s with
  | nil => rfl
  | cons op ops ih =>
      have hstep := cache_step hs (h op List.mem_cons_self)
      have hs' : (s.step op).2.cache.answer = Selector.compileClause folding := by
        rw [hstep, Cache.answer_settleAll, hs]
      rw [List.flatMap_cons, Cache.settleAll_append, ← hstep]
      exact ih hs' fun op' hop' => h op' (List.mem_cons_of_mem op hop')

/-! ### Uses that drop nothing -/

/-- After the use everything that was filed is still filed, in the same form. -/
def Grows {α : Type} (action : Action α) : Prop :=
  ∀ s : Session, Extends (action.run s).2.cache.entries s.cache.entries

section Rules

variable {α β : Type}

lemma Grows.pure (a : α) : Grows (Pure.pure a : Action α) := fun _ => Extends.refl _

/-- Two parts that drop nothing drop nothing together. -/
lemma Grows.bind {action : Action α} {next : α → Action β} (h : Grows action)
    (hnext : ∀ a, Grows (next a)) : Grows (action >>= next) :=
  fun s => (hnext _ _).trans (h s)

lemma Grows.map {action : Action α} (h : Grows action) (f : α → β) : Grows (f <$> action) := h

lemma Grows.mapM {f : α → Action β} (h : ∀ a, Grows (f a)) (as : List α) :
    Grows (as.mapM f) := by
  induction as with
  | nil => exact Grows.pure []
  | cons a as ih =>
      rw [List.mapM_cons]
      exact (h a).bind fun b => ih.bind fun bs => Grows.pure (b :: bs)

lemma grows_record (r : Record) : Grows (record r) := fun _ => Extends.refl _

/-- Under the lock, it is up to what is done to the contents. -/
lemma grows_writing {f : Cache → α × Cache} (h : ∀ c, Extends (f c).2.entries c.entries) :
    Grows (writing f) := by
  intro s
  rw [(cache_writing f s).2]
  exact h s.cache

lemma grows_reading (f : Cache → α) : Grows (reading f) := by
  intro s
  rw [(cache_reading f s).2]
  exact Extends.refl _

end Rules

lemma grows_extend (pairs : List (String × String)) : Grows (extend pairs) :=
  (grows_writing fun c => c.extends_extend pairs).bind fun n =>
    (grows_record (.extended n)).bind fun _ => Grows.pure n

/-- Contents that are put back are what they were. -/
lemma grows_reload : Grows (perform .reload) := by
  intro s
  have hreload : ((perform .reload).run s).2.cache = s.cache.replace s.cache.pairs := by
    obtain ⟨cache, poisoned, log⟩ := s
    cases poisoned <;> rfl
  rw [hreload, Cache.replace_of_perm (List.Perm.refl _)]
  exact Extends.refl _

/-- A lookup leaves the contents, a publication extends them, and what others do in
between must not drop anything. -/
lemma grows_compileClauseAmid {others : Action Unit} (h : Grows others) (clause : String) :
    Grows (compileClauseAmid others clause) := by
  have hlookup : Grows (writing (·.lookup (Cache.key clause))) := by
    refine grows_writing fun c => ?_
    rw [Cache.entries_lookup]
    exact Extends.refl _
  refine hlookup.bind fun found => ?_
  cases found with
  | some xpath => exact (grows_record _).bind fun _ => Grows.pure _
  | none =>
      refine Grows.bind (fun _ => Extends.refl _) fun c => ?_
      cases Selector.compileClause c.folding (Cache.key clause) with
      | error e => exact Grows.pure _
      | ok xpath =>
          refine (grows_record _).bind fun _ => h.bind fun _ => Grows.bind ?_ fun _ => Grows.pure _
          exact grows_writing fun c => c.extends_publish _ _

lemma grows_compile (selector : String) : Grows (compile selector) := by
  intro s
  rw [(run_compile selector s).2]
  exact s.cache.extends_settleAll _

/-- The uses after which something may be gone. -/
def Op.drops : Op → Bool
  | .clear | .replace _ => true
  | _ => false

/-- Only replacing and emptying drop something. A listing that is put in again does not. -/
lemma grows_perform {op : Op} (h : op.drops = false) : Grows (perform op) := by
  cases op with
  | compile selector => exact (grows_compile selector).map _
  | compileClause clause => exact (grows_compileClauseAmid (Grows.pure ()) clause).map _
  | find clause => exact (grows_reading _).map _
  | contains clause => exact (grows_reading _).map _
  | isEmpty => exact (grows_reading _).map _
  | size => exact (grows_reading _).map _
  | pairs => exact (grows_reading _).map _
  | stats => exact (grows_reading _).map _
  | folding => exact fun _ => Extends.refl _
  | extend pairs => exact (grows_extend pairs).map _
  | reload => exact grows_reload
  | failExtend pairs =>
      exact ((grows_writing fun c => c.extends_extend pairs).bind fun _ _ => Extends.refl _).bind
        fun _ => Grows.pure _
  | compileClauseRaced clause rival =>
      have hrival : Grows (do let _ ← extend [rival]) :=
        (grows_extend [rival]).bind fun _ => Grows.pure ()
      exact (grows_compileClauseAmid hrival clause).map _
  | warm selectors => exact (Grows.mapM grows_compile selectors).map _
  | clear => simp [Op.drops] at h
  | replace pairs => simp [Op.drops] at h

/-- By induction over the uses: what was filed before them is filed after them. -/
lemma extends_after {s : Session} {ops : List Op} (h : ∀ op ∈ ops, op.drops = false) :
    Extends (s.after ops).cache.entries s.cache.entries := by
  induction ops generalizing s with
  | nil => exact Extends.refl _
  | cons op ops ih =>
      have hstep : Extends (s.step op).2.cache.entries s.cache.entries :=
        grows_perform (h op List.mem_cons_self) { s with log := [] }
      exact (ih fun op' hop' => h op' (List.mem_cons_of_mem op hop')).trans hstep

/-! ### A compilation that is made again -/

/-- A selector whose clauses are all filed is put together from what is filed,
and each clause is a hit. -/
lemma step_compile_of_filed {s : Session} {selector : String} {clauses xpaths : List String}
    (hsplit : Selector.splitClauses selector = .ok clauses)
    (hfiled : List.Forall₂ (fun k xpath => s.cache.entries[k]? = some xpath) clauses xpaths) :
    (s.step (.compile selector)).1 = .compiled (.ok ⟨xpaths⟩) ∧
      (s.step (.compile selector)).2.cache =
        { s.cache with hits := s.cache.hits + clauses.length } := by
  have hmapM : clauses.mapM s.cache.answer = .ok xpaths :=
    Error.mapM_eq_ok.mpr (hfiled.imp fun _ _ => Cache.answer_of_filed)
  obtain ⟨hreply, hcache⟩ := step_compile selector s
  rw [Selector.resolve_of_ok hsplit, hmapM] at hreply
  rw [Selector.asks_of_ok hsplit, Error.reached_of_mapM hmapM, Cache.settleAll_of_filed hfiled]
    at hcache
  exact ⟨hreply, hcache⟩

/-- The clauses of a selector that was compiled are filed. -/
lemma filed_of_step_compile {s : Session} {selector : String} {compiled : Compiled}
    (h : (s.step (.compile selector)).1 = .compiled (.ok compiled)) :
    ∃ clauses, Selector.splitClauses selector = .ok clauses ∧
      List.Forall₂ (fun k xpath => (s.step (.compile selector)).2.cache.entries[k]? = some xpath)
        clauses compiled.clauses := by
  obtain ⟨hreply, hcache⟩ := step_compile selector s
  rw [hreply, Reply.compiled.injEq] at h
  cases hsplit : Selector.splitClauses selector with
  | error e =>
      rw [Selector.resolve_of_error hsplit] at h
      cases h
  | ok clauses =>
      refine ⟨clauses, rfl, ?_⟩
      rw [Selector.resolve_of_ok hsplit] at h
      cases hmapM : clauses.mapM s.cache.answer with
      | error e =>
          rw [hmapM] at h
          cases h
      | ok xpaths =>
          rw [hmapM] at h
          obtain rfl : Compiled.mk xpaths = compiled := Except.ok.inj h
          rw [hcache, Selector.asks_of_ok hsplit, Error.reached_of_mapM hmapM]
          have htold : List.Forall₂ (fun k xpath => k ∈ clauses ∧ s.cache.answer k = .ok xpath)
              clauses xpaths :=
            (List.forall₂_and_left _ _).mpr ⟨fun _ hk => hk, Error.mapM_eq_ok.mp hmapM⟩
          exact htold.imp fun k xpath hk =>
            (s.cache.filed_settleAll_iff clauses k xpath).mpr (.inr hk)

/-- **Hits and misses.** After any history of compilations the contents are the
different keys that were asked for and compile; each of them was one miss, and
so was every failure, as often as it occurred; all other lookups were hits. And
a selector that has compiled, whatever was filed before, compiles to the same
when it is compiled again, if nothing was dropped meanwhile: with a hit for
each of its clauses, no miss, and the contents unchanged. -/
theorem lookups_are_accounted (folding : Folding) :
    (∀ ops : List Op, (∀ op ∈ ops, op.isCompilation) →
      let lookups := ops.flatMap (Op.lookups folding)
      let forms := (lookups.filter fun k => (Selector.compileClause folding k).isOk).dedup.length
      let failures := lookups.countP fun k => !(Selector.compileClause folding k).isOk
      let stats := ((fresh folding).after ops).cache.stats
      stats.entries = forms ∧ stats.misses = forms + failures ∧
        stats.hits + stats.misses = lookups.length) ∧
    ∀ (s : Session) (selector : String) (compiled : Compiled),
      (s.step (.compile selector)).1 = .compiled (.ok compiled) →
      ∀ meanwhile : List Op, (∀ op ∈ meanwhile, op.drops = false) →
        let t := (s.step (.compile selector)).2.after meanwhile
        let again := t.step (.compile selector)
        again.1 = .compiled (.ok compiled) ∧ again.2.cache.entries = t.cache.entries ∧
          again.2.cache.misses = t.cache.misses ∧
          ∃ clauses, Selector.splitClauses selector = .ok clauses ∧
            again.2.cache.hits = t.cache.hits + clauses.length := by
  refine ⟨?_, ?_⟩
  · intro ops hops lookups forms failures stats
    have hcache : ((fresh folding).after ops).cache = (Cache.empty folding).settleAll lookups :=
      cache_after (Cache.answer_empty folding) hops
    have hentries : stats.entries = forms :=
      (congrArg Cache.size hcache).trans (Cache.size_settleAll_empty folding lookups)
    have hnone : (Cache.empty folding).size = 0 := Std.ExtTreeMap.size_empty
    have hmisses := (Cache.empty folding).misses_settleAll lookups
    have hcount := (Cache.empty folding).count_settleAll lookups
    rw [← hcache, Cache.answer_empty] at hmisses
    rw [← hcache] at hcount
    refine ⟨hentries, ?_, ?_⟩
    · calc stats.misses = stats.misses + (Cache.empty folding).size := by rw [hnone, Nat.add_zero]
        _ = 0 + stats.entries + failures := hmisses
        _ = forms + failures := by rw [hentries, Nat.zero_add]
    · exact hcount.trans (Nat.zero_add lookups.length)
  · intro s selector compiled h meanwhile hmeanwhile t again
    obtain ⟨clauses, hsplit, hfiled⟩ := filed_of_step_compile h
    have hstill := hfiled.imp fun k xpath => extends_after hmeanwhile k xpath
    obtain ⟨hreply, hcache⟩ := step_compile_of_filed (s := t) hsplit hstill
    have hagain : again.2.cache = { t.cache with hits := t.cache.hits + clauses.length } := hcache
    exact ⟨hreply, by rw [hagain], by rw [hagain], clauses, hsplit, by rw [hagain]⟩

/-- Clauses that come twice, in one selector and in several, and failures that do
too. Then a selector with a clause that compiles only because a form of it was
brought in, made again after more pairs and another selector. -/
theorem lookups_are_accounted_repeated :
    (let stats := ((fresh .ascii).after [.compile "p, q, p", .compileClause " q ",
       .compile "p, q:nope, r", .compileClause "q:nope", .compile "p,"]).cache.stats
     stats.entries = 2 ∧ stats.misses = 2 + 2 ∧ stats.hits + stats.misses = 7) ∧
    (let loaded : Session := ⟨⟨.ascii, Cache.entriesOf [("q:nope", "//other")], 0, 0⟩, true, []⟩
     let t := (loaded.step (.compile "q:nope, p")).2.after
       [.extend [("p", "//rival"), ("r", "//r")], .reload, .compile "z"]
     let again := t.step (.compile "q:nope, p")
     again.1 = .compiled (.ok ⟨["//other", "//p"]⟩) ∧ again.2.cache.entries = t.cache.entries ∧
       again.2.cache.misses = t.cache.misses ∧
       ∃ clauses, Selector.splitClauses "q:nope, p" = .ok clauses ∧
         again.2.cache.hits = t.cache.hits + clauses.length) := by
  constructor
  · obtain ⟨hentries, hmisses, hcount⟩ := (lookups_are_accounted .ascii).1
      [.compile "p, q, p", .compileClause " q ", .compile "p, q:nope, r", .compileClause "q:nope",
        .compile "p,"] (by decide)
    refine ⟨?_, ?_, ?_⟩
    · rw [hentries]
      decide +kernel
    · rw [hmisses]
      decide +kernel
    · rw [hcount]
      decide +kernel
  · intro loaded
    have hloaded : (loaded.step (.compile "q:nope, p")).1 =
        .compiled (.ok ⟨["//other", "//p"]⟩) := by
      rw [(step_compile "q:nope, p" loaded).1, Reply.compiled.injEq]
      decide +kernel
    exact (lookups_are_accounted .ascii).2 loaded "q:nope, p" ⟨["//other", "//p"]⟩ hloaded
      [.extend [("p", "//rival"), ("r", "//r")], .reload, .compile "z"] (by decide)

end Session

end SelectorPath
