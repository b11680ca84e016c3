/-
A cache is transparent: it answers as if every clause were compiled anew.

* `Cache.Coherent`: everything filed is what its key compiles to. Looking up,
  publishing a compiled clause, emptying and putting the contents back keep
  this.
* `Session.Keeps`: uses that leave a coherent cache coherent, and what they
  answer then.
* `Session.keeps_compileClauseAmid`, `Session.keeps_compile`: compiling through
  a coherent cache is compiling, whatever is done between the two times that
  the lock is taken.
* `Session.compiles_uncached`: no history of own uses can be told from the
  answers.
-/
import SelectorPath.Cache.Session
import SelectorPath.Proofs.Cache.Contents
import SelectorPath.Proofs.Selector.Parsed

namespace SelectorPath

open XPath

/-! ### Coherent contents -/

namespace Cache

lemma key_key (clause : String) : key (key clause) = key clause := by
  rw [key, key, String.toList_ofList, Text.trim_trim]

/-- The clauses of a selector are their own keys. -/
lemma key_of_mem_splitClauses {selector : String} {clauses : List String}
    (h : Selector.splitClauses selector = .ok clauses) {clause : String} (hmem : clause ∈ clauses) :
    key clause = clause := by
  rw [key, (Selector.of_splitClauses h).2 clause hmem, String.ofList_toList]

/-- The clauses of a selector have been trimmed already. -/
lemma map_key_of_splitClauses {selector : String} {clauses : List String}
    (h : Selector.splitClauses selector = .ok clauses) : clauses.map key = clauses :=
  (List.map_congr_left fun _ => key_of_mem_splitClauses h).trans (List.map_id clauses)

/-- Everything that is filed is what its key compiles to, and every key is a
trimmed text that is not empty. -/
structure Coherent (folding : Folding) (c : Cache) : Prop where
  /-- Clauses are compiled as they should be. -/
  folding_eq : c.folding = folding
  /-- What is filed. -/
  filed : ∀ k xpath, c.entries[k]? = some xpath →
    k ≠ "" ∧ key k = k ∧ Selector.compileClause folding k = .ok xpath

/-- An empty text is no clause. -/
lemma ne_empty_of_compileClause {folding : Folding} {k xpath : String}
    (h : Selector.compileClause folding k = .ok xpath) : k ≠ "" := by
  rintro rfl
  rw [Selector.compileClause, Selector.clausePath, Clause.toPath] at h
  simp [Text.trim, Text.trimStart, Text.trimEnd, Except.map] at h

variable {folding : Folding} {c : Cache}

lemma coherent_empty (folding : Folding) : Coherent folding (empty folding) :=
  ⟨rfl, fun k xpath h => by simp [empty] at h⟩

/-- Looking up changes the counts only. -/
lemma Coherent.lookup (h : Coherent folding c) (k : String) :
    Coherent folding (c.lookup k).2 := by
  refine ⟨(folding_lookup c k).trans h.folding_eq, ?_⟩
  rw [entries_lookup]
  exact h.filed

/-- A clause may be published under its own key. -/
lemma Coherent.publish (h : Coherent folding c) {k xpath : String} (hkey : key k = k)
    (hk : Selector.compileClause folding k = .ok xpath) :
    Coherent folding (c.publish k xpath).2 := by
  refine ⟨(folding_publish c k xpath).trans h.folding_eq, fun k' xpath' hfiled => ?_⟩
  rw [getElem?_publish] at hfiled
  split_ifs at hfiled with heq
  · subst heq
    cases hold : c.entries[k']? with
    | none =>
        obtain rfl : xpath = xpath' := by simpa [hold] using hfiled
        exact ⟨ne_empty_of_compileClause hk, hkey, hk⟩
    | some existing =>
        obtain rfl : existing = xpath' := by simpa [hold] using hfiled
        exact h.filed k' existing hold
  · exact h.filed k' xpath' hfiled

/-- What publishing a clause gives back is what the clause compiles to. -/
lemma Coherent.fst_publish (h : Coherent folding c) {k xpath : String}
    (hk : Selector.compileClause folding k = .ok xpath) : (c.publish k xpath).1 = xpath := by
  rw [Cache.fst_publish]
  cases hold : c.entries[k]? with
  | none => rfl
  | some existing =>
      have hsame := (h.filed k existing hold).2.2
      rw [hk] at hsame
      exact (Except.ok.inj hsame).symm

lemma Coherent.clear (h : Coherent folding c) : Coherent folding c.clear :=
  ⟨h.folding_eq, fun k xpath hfiled => by simp [Cache.clear] at hfiled⟩

/-- The contents of a coherent cache may be put back. -/
lemma Coherent.replace_pairs {c' : Cache} (h : Coherent folding c) (h' : Coherent folding c') :
    Coherent folding (c.replace c'.pairs) := by
  refine ⟨h.folding_eq, fun k xpath hfiled => h'.filed k xpath ?_⟩
  exact c'.mem_pairs_iff.mp (mem_of_getElem?_entriesOf hfiled)

end Cache

/-! ### Uses that keep a cache coherent -/

namespace Session

open Cache (Coherent)

/-- Begun with a coherent cache, a use leaves a coherent cache and gives a
result that `post` holds of. -/
def Keeps (folding : Folding) {α : Type} (action : Action α) (post : α → Prop) : Prop :=
  ∀ s : Session, Coherent folding s.cache →
    post (action.run s).1 ∧ Coherent folding (action.run s).2.cache

section Rules

variable {folding : Folding} {α β : Type}

lemma Keeps.pure {a : α} {post : α → Prop} (h : post a) :
    Keeps folding (Pure.pure a : Action α) post := fun _ hs => ⟨h, hs⟩

/-- The result of the first part is all that the second one needs to know of it. -/
lemma Keeps.bind {action : Action α} {next : α → Action β} {mid : α → Prop} {post : β → Prop}
    (h : Keeps folding action mid) (hnext : ∀ a, mid a → Keeps folding (next a) post) :
    Keeps folding (action >>= next) post := by
  intro s hs
  obtain ⟨hmid, hs'⟩ := h s hs
  exact hnext _ hmid _ hs'

lemma Keeps.map {action : Action α} {f : α → β} {mid : α → Prop} {post : β → Prop}
    (h : Keeps folding action mid) (hf : ∀ a, mid a → post (f a)) :
    Keeps folding (f <$> action) post :=
  fun s hs => ⟨hf _ (h s hs).1, (h s hs).2⟩

/-- A list of uses, each with an answer that is known beforehand. -/
lemma Keeps.mapM {f : α → Action β} {g : α → β} (h : ∀ a, Keeps folding (f a) (· = g a))
    (as : List α) : Keeps folding (as.mapM f) (· = as.map g) := by
  induction as with
  | nil => exact Keeps.pure rfl
  | cons a as ih =>
      rw [List.mapM_cons]
      refine (h a).bind fun b hb => ih.bind fun bs hbs => Keeps.pure ?_
      rw [hb, hbs, List.map_cons]

lemma keeps_record (r : Record) : Keeps folding (record r) fun _ => True :=
  fun _ hs => ⟨trivial, hs⟩

lemma keeps_get : Keeps folding get fun s => Coherent folding s.cache := fun _ hs => ⟨hs, hs⟩

lemma keeps_lock : Keeps folding lock fun _ => True := by
  refine keeps_get.bind fun s _ => ?_
  cases s.poisoned with
  | false => exact Keeps.pure trivial
  | true => exact keeps_record .recovered

lemma keeps_cached : Keeps folding cached (Coherent folding) :=
  keeps_get.bind fun _ hs => Keeps.pure hs

lemma keeps_setCache {c : Cache} (h : Coherent folding c) :
    Keeps folding (setCache c) fun _ => True := fun _ _ => ⟨trivial, h⟩

/-- What is read is read from a coherent cache. -/
lemma keeps_reading (f : Cache → α) :
    Keeps folding (reading f) fun a => ∃ c, Coherent folding c ∧ f c = a :=
  keeps_lock.bind fun _ _ => keeps_cached.bind fun c hc => Keeps.pure ⟨c, hc, rfl⟩

/-- What is written must leave a coherent cache. -/
lemma keeps_writing {f : Cache → α × Cache} {post : α → Prop}
    (h : ∀ c, Coherent folding c → post (f c).1 ∧ Coherent folding (f c).2) :
    Keeps folding (writing f) post :=
  keeps_lock.bind fun _ _ => keeps_cached.bind fun c hc =>
    (keeps_setCache (h c hc).2).bind fun _ _ => Keeps.pure (h c hc).1

end Rules

/-! ### Compiling through a coherent cache -/

variable {folding : Folding}

/-- Compiling a clause through a coherent cache is compiling its key, also
amid others, as long as these keep the cache coherent. -/
theorem keeps_compileClauseAmid {others : Action Unit}
    (hothers : Keeps folding others fun _ => True) (clause : String) :
    Keeps folding (compileClauseAmid others clause)
      (· = Selector.compileClause folding (Cache.key clause)) := by
  have hlookup : Keeps folding (writing (·.lookup (Cache.key clause))) fun found =>
      ∀ xpath, found = some xpath →
        Selector.compileClause folding (Cache.key clause) = .ok xpath := by
    refine keeps_writing fun c hc => ⟨fun xpath hfound => ?_, hc.lookup _⟩
    rw [Cache.fst_lookup] at hfound
    exact (hc.filed _ _ hfound).2.2
  refine hlookup.bind fun found hfound => ?_
  cases found with
  | some xpath =>
      exact (keeps_record _).bind fun _ _ => Keeps.pure (hfound xpath rfl).symm
  | none =>
      refine keeps_cached.bind fun c hc => ?_
      rw [hc.folding_eq]
      cases hcompile : Selector.compileClause folding (Cache.key clause) with
      | error e => exact Keeps.pure rfl
      | ok xpath =>
          refine (keeps_record _).bind fun _ _ => hothers.bind fun _ _ => ?_
          have hpublish : Keeps folding (writing (·.publish (Cache.key clause) xpath))
              (· = xpath) :=
            keeps_writing fun c hc =>
              ⟨hc.fst_publish hcompile, hc.publish (Cache.key_key clause) hcompile⟩
          exact hpublish.bind fun _ heq => Keeps.pure (by rw [heq])

lemma keeps_compileClause (clause : String) :
    Keeps folding (compileClause clause)
      (· = Selector.compileClause folding (Cache.key clause)) :=
  keeps_compileClauseAmid (Keeps.pure trivial) clause

/-- Clause by clause, up to the first that fails. -/
lemma keeps_compileClauses (clauses : List String) :
    Keeps folding (compileClauses clauses)
      (· = (clauses.map Cache.key).mapM (Selector.compileClause folding)) := by
  induction clauses with
  | nil => exact Keeps.pure rfl
  | cons clause clauses ih =>
      rw [compileClauses, List.map_cons, List.mapM_cons]
      refine (keeps_compileClause clause).bind fun first hfirst => ?_
      rw [← hfirst]
      cases first with
      | error e => exact Keeps.pure rfl
      | ok xpath =>
          refine ih.bind fun more hmore => Keeps.pure ?_
          rw [← hmore]
          cases more <;> rfl

/-- Compiling a selector through a coherent cache is compiling it. -/
theorem keeps_compile (selector : String) :
    Keeps folding (compile selector) (· = Selector.compile folding selector) := by
  rw [compile, Selector.compile_eq]
  cases hsplit : Selector.splitClauses selector with
  | error e => exact Keeps.pure rfl
  | ok clauses =>
      refine (keeps_compileClauses clauses).bind fun results hresults => Keeps.pure ?_
      rw [Cache.map_key_of_splitClauses hsplit] at hresults
      show _ = (do return Compiled.mk (← clauses.mapM (Selector.compileClause folding)))
      rw [← hresults]
      cases results <;> rfl

/-! ### Histories -/

/-- The uses that bring in nothing from outside: no pairs are given, and no
other writer acts. -/
def Op.isOwn : Op → Bool
  | .replace _ | .extend _ | .failExtend _ | .compileClauseRaced _ _ => false
  | _ => true

/-- What an own use leaves behind. -/
lemma keeps_perform {op : Op} (h : op.isOwn) : Keeps folding (perform op) fun _ => True := by
  cases op with
  | compile selector => exact (keeps_compile selector).map fun _ _ => trivial
  | compileClause clause => exact (keeps_compileClause clause).map fun _ _ => trivial
  | find clause => exact (keeps_reading _).map fun _ _ => trivial
  | contains clause => exact (keeps_reading _).map fun _ _ => trivial
  | isEmpty => exact (keeps_reading _).map fun _ _ => trivial
  | size => exact (keeps_reading _).map fun _ _ => trivial
  | pairs => exact (keeps_reading _).map fun _ _ => trivial
  | stats => exact (keeps_reading _).map fun _ _ => trivial
  | folding => exact keeps_cached.bind fun _ _ => Keeps.pure trivial
  | clear =>
      have hclear : Keeps folding (writing fun c => ((), c.clear)) fun _ => True :=
        keeps_writing fun c hc => ⟨trivial, hc.clear⟩
      exact (hclear.bind fun _ _ => keeps_record _).bind fun _ _ => Keeps.pure trivial
  | reload =>
      refine (keeps_reading Cache.pairs).bind fun pairs hpairs => ?_
      -- the pairs that are put back are those of a cache that was coherent when they were listed
      obtain ⟨c', hc', rfl⟩ := hpairs
      have hreplace : Keeps folding (writing fun c => ((), c.replace c'.pairs)) fun _ => True :=
        keeps_writing fun c hc => ⟨trivial, hc.replace_pairs hc'⟩
      exact ((keeps_record _).bind fun _ _ => hreplace).bind fun _ _ => Keeps.pure trivial
  | warm selectors => exact (Keeps.mapM keeps_compile selectors).map fun _ _ => trivial
  -- pairs of the caller's own need not be what the compiler gives
  | replace pairs => simp [Op.isOwn] at h
  | extend pairs => simp [Op.isOwn] at h
  | failExtend pairs => simp [Op.isOwn] at h
  | compileClauseRaced clause rival => simp [Op.isOwn] at h

/-- The cache is coherent after one own use. -/
lemma coherent_step {s : Session} {op : Op} (hs : Coherent folding s.cache) (h : op.isOwn) :
    Coherent folding (s.step op).2.cache :=
  (keeps_perform h { s with log := [] } hs).2

/-- The cache is coherent at all times. -/
theorem coherent_run {s : Session} (hs : Coherent folding s.cache) {ops : List Op}
    (hown : ∀ op ∈ ops, op.isOwn) :
    ∀ t ∈ s :: (s.run ops).map Prod.snd, Coherent folding t.cache := by
  induction ops generalizing s with
  | nil => simpa [run] using hs
  | cons op ops ih =>
      have hstep : Coherent folding (s.step op).2.cache :=
        coherent_step hs (hown op List.mem_cons_self)
      have hrest := ih hstep fun op' hop' => hown op' (List.mem_cons_of_mem op hop')
      intro t ht
      rw [run, List.map_cons] at ht
      rcases List.mem_cons.mp ht with rfl | ht
      · exact hs
      · exact hrest t ht

/-- What a coherent cache answers. -/
lemma fst_step_of_keeps {α : Type} {s : Session} {op : Op} {action : Action α} {f : α → Reply}
    {a : α} (hs : Coherent folding s.cache) (hop : perform op = f <$> action)
    (h : Keeps folding action (· = a)) : (s.step op).1 = f a := by
  rw [step, hop]
  exact congrArg f (h { s with log := [] } hs).1

/-- A cache that has not been used. -/
def fresh (folding : Folding) : Session := { cache := .empty folding }

/-- **Transparency.** Whatever own uses a cache has seen, everything in it is what its
key compiles to, and the key is trimmed and not empty. Selectors compile to the same as
without it, and clauses to what they compile to without white space around them, with
the same errors. This holds of a clause also when others use the cache between the two
times that the lock is taken, as the compilations of one batch may do. -/
theorem compiles_uncached (folding : Folding) {ops : List Op} (hown : ∀ op ∈ ops, op.isOwn)
    {t : Session} (ht : t ∈ fresh folding :: ((fresh folding).run ops).map Prod.snd) :
    (∀ k xpath, (k, xpath) ∈ t.cache.pairs →
      k ≠ "" ∧ String.ofList (Text.trim k.toList) = k ∧
        Selector.compileClause folding k = .ok xpath) ∧
    (∀ selector, (t.step (.compile selector)).1 =
      .compiled (Selector.compile folding selector)) ∧
    (∀ clause, (t.step (.compileClause clause)).1 =
      .xpath (Selector.compileClause folding (String.ofList (Text.trim clause.toList)))) ∧
    (∀ selectors, (t.step (.warm selectors)).1 =
      .batch (selectors.map (Selector.compile folding))) ∧
    ∀ others clause, Keeps folding others (fun _ => True) →
      ((compileClauseAmid others clause).run t).1 =
        Selector.compileClause folding (String.ofList (Text.trim clause.toList)) := by
  have hcoherent : Coherent folding t.cache :=
    coherent_run (Cache.coherent_empty folding) hown t ht
  refine ⟨?_, ?_, ?_, ?_, ?_⟩
  · intro k xpath hmem
    exact hcoherent.filed k xpath (t.cache.mem_pairs_iff.mp hmem)
  · intro selector
    exact fst_step_of_keeps hcoherent rfl (keeps_compile selector)
  · intro clause
    exact fst_step_of_keeps hcoherent rfl (keeps_compileClause clause)
  · intro selectors
    exact fst_step_of_keeps hcoherent rfl (Keeps.mapM keeps_compile selectors)
  · intro others clause hothers
    exact (keeps_compileClauseAmid hothers clause t hcoherent).1

/-- A history with selectors that fail, a clause that comes twice, and contents
that are dropped, filed again and put back. -/
theorem compiles_uncached_after_history :
    ∃ t ∈ fresh .ascii :: ((fresh .ascii).run
        [.compile "p, q", .compile "p, q:nope, r", .clear, .warm [" p , q, p", "p,"],
          .reload]).map Prod.snd,
      t.cache.pairs = [("p", "//p"), ("q", "//q")] ∧
        (t.step (.compile "q, p:nope, q")).1 =
          .compiled (Selector.compile .ascii "q, p:nope, q") ∧
        (t.step (.compileClause " q\n")).1 = .xpath (Selector.compileClause .ascii "q") := by
  have hmem := List.getLast_mem (List.cons_ne_nil (fresh .ascii) (((fresh .ascii).run
    [.compile "p, q", .compile "p, q:nope, r", .clear, .warm [" p , q, p", "p,"],
      .reload]).map Prod.snd))
  have hown : ∀ op ∈ [Op.compile "p, q", .compile "p, q:nope, r", .clear,
      .warm [" p , q, p", "p,"], .reload], op.isOwn := by
    simp [Op.isOwn]
  have hsame := compiles_uncached .ascii hown hmem
  have hkey : Cache.key " q\n" = "q" := by decide +kernel
  refine ⟨_, hmem, by decide +kernel, hsame.2.1 _, ?_⟩
  rw [← hkey]
  exact hsame.2.2.1 " q\n"

end Session

end SelectorPath
