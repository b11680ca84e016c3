/-
The contents of a cache as a whole: listed, put in, and added to.

* `Cache.pairs_increasing`: a listing is in the order of the bytes of its keys;
  `Cache.mergeSort_eq_pairs`: it is what sorting makes of the entries.
* `Session.step_replace`, `Session.step_extend`, `Session.step_clear`: the uses
  that concern the contents as a whole.
* `Cache.Alike`, `Session.Uniform`: caches that differ in their counts only, and
  uses that cannot tell them apart; all are such but the one that asks for the
  counts (`Session.uniform_perform`).
* `Session.contents_obey_map_laws`: the laws of listing, putting in and adding.
-/
import Mathlib.Data.List.Sort
import Mathlib.Data.Prod.Lex
import Mathlib.Data.String.Basic
import SelectorPath.Proofs.Bytes.Encoding
import SelectorPath.Proofs.Cache.Interleaving

namespace SelectorPath

namespace Cache

/-- A listing is in the order of the bytes of its keys. -/
lemma pairs_increasing (c : Cache) :
    c.pairs.Pairwise fun p q => Text.encode p.1.toList < Text.encode q.1.toList := by
  refine (Std.ExtTreeMap.ordered_keys_toList (t := c.entries)).imp fun h => ?_
  exact Text.encode_lt_encode (String.lt_iff_toList_lt.mp (compareOfLessAndEq_eq_lt.mp h))

/-- A listing is what sorting makes of the entries, in whatever order they are visited.
They are sorted as pairs, by the key and then by the form. -/
theorem mergeSort_eq_pairs {c : Cache} {visited : List (String × String)} (hnodup : visited.Nodup)
    (hvisited : ∀ k xpath, (k, xpath) ∈ visited ↔ c.entries[k]? = some xpath) :
    visited.mergeSort (fun p q => decide (toLex p ≤ toLex q)) = c.pairs := by
  have hperm : visited.Perm c.pairs := by
    refine (List.perm_ext_iff_of_nodup hnodup (.of_map _ c.nodup_keys)).mpr fun pair => ?_
    obtain ⟨k, xpath⟩ := pair
    rw [hvisited, mem_pairs_iff]
  have hlisted : c.pairs.Pairwise fun p q => toLex p ≤ toLex q := by
    refine (Std.ExtTreeMap.ordered_keys_toList (t := c.entries)).imp fun h => ?_
    exact Prod.Lex.toLex_le_toLex.mpr (.inl (compareOfLessAndEq_eq_lt.mp h))
  have hsorted : (visited.mergeSort fun p q => decide (toLex p ≤ toLex q)).Pairwise
      fun p q => toLex p ≤ toLex q := by
    refine (List.pairwise_mergeSort ?_ ?_ visited).imp of_decide_eq_true
    · intro p q r hpq hqr
      exact decide_eq_true ((of_decide_eq_true hpq).trans (of_decide_eq_true hqr))
    · intro p q
      simpa using le_total (toLex p) (toLex q)
  -- two rows of the same pairs, both in order
  exact ((List.mergeSort_perm visited _).trans hperm).eq_of_pairwise
    (fun p q _ _ hpq hqp => toLex.injective (le_antisymm hpq hqp)) hsorted hlisted

lemma length_pairs (c : Cache) : c.pairs.length = c.size := Std.ExtTreeMap.length_toList

/-- There is one entry for each key that is put in. -/
lemma size_replace (c : Cache) (pairs : List (String × String)) :
    (c.replace pairs).size = (pairs.map Prod.fst).dedup.length :=
  size_eq_length_dedup fun _ => mem_entriesOf_iff

/-- The number of pairs that went in is that by which the contents have grown. -/
lemma size_extend (c : Cache) (pairs : List (String × String)) :
    (c.extend pairs).2.size = c.size + (c.extend pairs).1 := by
  have hsize := size_foldl_add pairs (0, c.entries)
  rw [Nat.zero_add, Nat.add_comm] at hsize
  exact hsize.symm

/-- A key that was not filed has the first of the pairs that are added. -/
lemma getElem?_extend_of_missing {c : Cache} {k : String} (h : c.entries[k]? = none)
    (pairs : List (String × String)) : (c.extend pairs).2.entries[k]? = pairs.lookup k :=
  (getElem?_foldl_add pairs (0, c.entries) k).trans (by rw [h, Option.none_or])

/-- The caches compile alike and have the same contents. -/
structure Alike (c c' : Cache) : Prop where
  /-- They compile alike. -/
  folding : c.folding = c'.folding
  /-- They have the same contents. -/
  entries : c.entries = c'.entries

end Cache

namespace Session

open Cache (Alike)

/-! ### The contents as a whole -/

lemma step_replace (s : Session) (pairs : List (String × String)) :
    (s.step (.replace pairs)).2.cache = s.cache.replace pairs :=
  (cache_writing (fun c => ((), c.replace pairs)) _).2

/-- Adding pairs tells how many went in. -/
lemma step_extend (s : Session) (pairs : List (String × String)) :
    (s.step (.extend pairs)).1 = .count (s.cache.extend pairs).1 ∧
      (s.step (.extend pairs)).2.cache = (s.cache.extend pairs).2 := by
  obtain ⟨hcount, hcache⟩ := cache_writing (·.extend pairs) { s with log := [] }
  exact ⟨congrArg Reply.count hcount, hcache⟩

lemma step_clear (s : Session) : (s.step .clear).2.cache = s.cache.clear :=
  (cache_writing (fun c => ((), c.clear)) _).2

/-- A search tells what is filed under the trimmed clause, and so does the question
whether there is something. -/
lemma step_find (s : Session) (clause : String) :
    (s.step (.find clause)).1 = .found (s.cache.find? clause) :=
  congrArg Reply.found (cache_reading (·.find? clause) _).1

lemma step_contains (s : Session) (clause : String) :
    (s.step (.contains clause)).1 = .truth (s.cache.find? clause).isSome :=
  congrArg Reply.truth (cache_reading (fun c => (c.find? clause).isSome) _).1

lemma step_size (s : Session) : (s.step .size).1 = .count s.cache.size :=
  congrArg Reply.count (cache_reading Cache.size _).1

lemma step_pairs (s : Session) : (s.step .pairs).1 = .pairs s.cache.pairs :=
  congrArg Reply.pairs (cache_reading Cache.pairs _).1

/-! ### Caches that differ in their counts -/

/-- The use cannot tell caches apart that differ in their counts only: it has the
same result, and afterwards they do not differ otherwise either. -/
def Uniform {α : Type} (action : Action α) : Prop :=
  ∀ s t : Session, s.cache.Alike t.cache → (action.run s).1 = (action.run t).1 ∧
    (action.run s).2.cache.Alike (action.run t).2.cache

section Rules

variable {α β : Type}

lemma Uniform.pure (a : α) : Uniform (Pure.pure a : Action α) := fun _ _ h => ⟨rfl, h⟩

/-- What comes first must not tell the caches apart, nor what follows, whatever the result
of the first. -/
lemma Uniform.bind {action : Action α} {next : α → Action β} (h : Uniform action)
    (hnext : ∀ a, Uniform (next a)) : Uniform (action >>= next) := by
  intro s t hst
  obtain ⟨hresult, hafter⟩ := h s t hst
  rw [run_bind, run_bind, hresult]
  exact hnext _ _ _ hafter

lemma Uniform.map {action : Action α} (h : Uniform action) (f : α → β) :
    Uniform (f <$> action) :=
  fun s t hst => ⟨congrArg f (h s t hst).1, (h s t hst).2⟩

/-- A use for each element of a list, by induction over the list. -/
lemma Uniform.mapM {f : α → Action β} (h : ∀ a, Uniform (f a)) (as : List α) :
    Uniform (as.mapM f) := by
  induction as with
  | nil => exact Uniform.pure []
  | cons a as ih =>
      rw [List.mapM_cons]
      exact (h a).bind fun b => ih.bind fun bs => Uniform.pure (b :: bs)

/-- Records are not part of the cache. -/
lemma uniform_record (r : Record) : Uniform (record r) := fun _ _ h => ⟨rfl, h⟩

/-- Outside the lock a use looks only at how the cache compiles. -/
lemma uniform_cached {next : Cache → Action α}
    (hsame : ∀ c c' : Cache, c.folding = c'.folding → next c = next c')
    (h : ∀ c, Uniform (next c)) : Uniform (cached >>= next) := by
  intro s t hst
  rw [run_bind, run_bind, run_cached, run_cached]
  dsimp only
  rw [hsame s.cache t.cache hst.folding]
  exact h t.cache s t hst

/-- Under the lock, a use is as uniform as what it does to the cache. -/
lemma uniform_writing {f : Cache → α × Cache}
    (h : ∀ c c' : Cache, c.Alike c' → (f c).1 = (f c').1 ∧ (f c).2.Alike (f c').2) :
    Uniform (writing f) := by
  intro s t hst
  rw [(cache_writing f s).1, (cache_writing f s).2, (cache_writing f t).1, (cache_writing f t).2]
  exact h s.cache t.cache hst

lemma uniform_reading {f : Cache → α} (h : ∀ c c' : Cache, c.Alike c' → f c = f c') :
    Uniform (reading f) := by
  intro s t hst
  rw [(cache_reading f s).1, (cache_reading f s).2, (cache_reading f t).1, (cache_reading f t).2]
  exact ⟨h s.cache t.cache hst, hst⟩

end Rules

lemma uniform_writing_extend (pairs : List (String × String)) :
    Uniform (writing (·.extend pairs)) := by
  refine uniform_writing fun c c' h => ?_
  rw [Cache.extend, Cache.extend, h.entries]
  exact ⟨rfl, h.folding, rfl⟩

/-- The number that is told, and recorded, depends on the contents only. -/
lemma uniform_extend (pairs : List (String × String)) : Uniform (extend pairs) :=
  (uniform_writing_extend pairs).bind fun n =>
    (uniform_record (.extended n)).bind fun _ => Uniform.pure n

/-- New contents do not depend on the old ones at all. -/
lemma uniform_replace (pairs : List (String × String)) : Uniform (replace pairs) :=
  (uniform_record _).bind fun _ => uniform_writing fun _ _ h => ⟨rfl, h.folding, rfl⟩

/-- A lookup counts and a publication files, and neither looks at the counts. What others
do in between must not either. -/
lemma uniform_compileClauseAmid {others : Action Unit} (h : Uniform others) (clause : String) :
    Uniform (compileClauseAmid others clause) := by
  have hlookup : Uniform (writing (·.lookup (Cache.key clause))) := by
    refine uniform_writing fun c c' hc => ⟨?_, ?_, ?_⟩
    · rw [Cache.fst_lookup, Cache.fst_lookup, hc.entries]
    · rw [Cache.folding_lookup, Cache.folding_lookup, hc.folding]
    · rw [Cache.entries_lookup, Cache.entries_lookup, hc.entries]
  have hpublish : ∀ xpath, Uniform (writing (·.publish (Cache.key clause) xpath)) := by
    refine fun xpath => uniform_writing fun c c' hc => ⟨?_, ?_, ?_⟩
    · rw [Cache.fst_publish, Cache.fst_publish, hc.entries]
    · rw [Cache.folding_publish, Cache.folding_publish, hc.folding]
    · refine Std.ExtTreeMap.ext_getElem? fun k => ?_
      rw [Cache.getElem?_publish, Cache.getElem?_publish, hc.entries]
  refine hlookup.bind fun found => ?_
  cases found with
  | some xpath => exact (uniform_record _).bind fun _ => Uniform.pure _
  | none =>
      refine uniform_cached (fun c c' hfolding => by rw [hfolding]) fun c => ?_
      cases Selector.compileClause c.folding (Cache.key clause) with
      | error e => exact Uniform.pure _
      | ok xpath =>
          exact (uniform_record _).bind fun _ => h.bind fun _ => (hpublish xpath).bind fun _ =>
            Uniform.pure _

/-- Clause by clause, up to the first that fails. -/
lemma uniform_compileClauses (clauses : List String) : Uniform (compileClauses clauses) := by
  induction clauses with
  | nil => exact Uniform.pure _
  | cons clause clauses ih =>
      refine (uniform_compileClauseAmid (Uniform.pure ()) clause).bind fun first => ?_
      cases first with
      | error e => exact Uniform.pure _
      | ok xpath => exact ih.bind fun _ => Uniform.pure _

lemma uniform_compile (selector : String) : Uniform (compile selector) := by
  rw [compile]
  cases Selector.splitClauses selector with
  | error e => exact Uniform.pure _
  | ok clauses => exact (uniform_compileClauses clauses).bind fun _ => Uniform.pure _

/-- The use that asks for the counts. -/
def Op.asksCounts : Op → Bool
  | .stats => true
  | _ => false

/-- No use looks at the counts but the one that asks for them. -/
lemma uniform_perform {op : Op} (h : op.asksCounts = false) : Uniform (perform op) := by
  cases op with
  | compile selector => exact (uniform_compile selector).map _
  | compileClause clause => exact (uniform_compileClauseAmid (Uniform.pure ()) clause).map _
  | find clause =>
      exact (uniform_reading fun _ _ h => congrArg (·[Cache.key clause]?) h.entries).map _
  | contains clause =>
      exact (uniform_reading fun _ _ h => congrArg (·[Cache.key clause]?.isSome) h.entries).map _
  | isEmpty => exact (uniform_reading fun _ _ h => congrArg (·.size == 0) h.entries).map _
  | size => exact (uniform_reading fun _ _ h => congrArg (·.size) h.entries).map _
  | pairs => exact (uniform_reading fun _ _ h => congrArg (·.toList) h.entries).map _
  | folding =>
      exact uniform_cached (fun c c' hfolding => by rw [hfolding]) fun _ => Uniform.pure _
  | clear =>
      have hclear : Uniform clear :=
        (uniform_writing fun _ _ h => ⟨rfl, h.folding, rfl⟩).bind fun _ => uniform_record _
      exact hclear.bind fun _ => Uniform.pure _
  | replace pairs => exact (uniform_replace pairs).bind fun _ => Uniform.pure _
  | extend pairs => exact (uniform_extend pairs).map _
  | reload =>
      have hpairs : Uniform (reading Cache.pairs) :=
        uniform_reading fun _ _ h => congrArg (·.toList) h.entries
      exact hpairs.bind fun pairs => (uniform_replace pairs).bind fun _ => Uniform.pure _
  | failExtend pairs =>
      have hfail : Uniform (failExtend pairs) :=
        (uniform_writing_extend pairs).bind fun _ _ _ h => ⟨rfl, h⟩
      exact hfail.bind fun _ => Uniform.pure _
  | compileClauseRaced clause rival =>
      have hrival : Uniform (do let _ ← extend [rival]) :=
        (uniform_extend [rival]).bind fun _ => Uniform.pure ()
      exact (uniform_compileClauseAmid hrival clause).map _
  | warm selectors => exact (Uniform.mapM uniform_compile selectors).map _
  -- only the counts tell the two caches apart
  | stats => simp [Op.asksCounts] at h

/-- Caches that differ in their counts only reply the same from then on, unless
they are asked for them. -/
lemma replies_of_alike {s t : Session} (hst : s.cache.Alike t.cache) {ops : List Op}
    (h : ∀ op ∈ ops, op.asksCounts = false) :
    (s.run ops).map Prod.fst = (t.run ops).map Prod.fst := by
  induction ops generalizing s t with
  | nil => rfl
  | cons op ops ih =>
      obtain ⟨hreply, hafter⟩ : (s.step op).1 = (t.step op).1 ∧
          (s.step op).2.cache.Alike (t.step op).2.cache :=
        uniform_perform (h op List.mem_cons_self) { s with log := [] } { t with log := [] } hst
      rw [run, run, List.map_cons, List.map_cons, hreply]
      exact congrArg _ (ih hafter fun op' hop' => h op' (List.mem_cons_of_mem op hop'))

/-! ### The laws -/

/-- The uses that change the contents as a whole. -/
def Op.isBulk : Op → Bool
  | .replace _ | .extend _ | .clear => true
  | _ => false

/-- The counts are not part of the contents. -/
lemma counts_of_isBulk (s : Session) {op : Op} (h : op.isBulk) :
    (s.step op).2.cache.hits = s.cache.hits ∧ (s.step op).2.cache.misses = s.cache.misses := by
  cases op with
  | replace pairs =>
      rw [step_replace]
      exact ⟨rfl, rfl⟩
  | extend pairs =>
      rw [(step_extend s pairs).2]
      exact ⟨rfl, rfl⟩
  | clear =>
      rw [step_clear]
      exact ⟨rfl, rfl⟩
  | _ => simp [Op.isBulk] at h

/-- **The contents as a map.** Whatever a cache has seen: its listing is strictly
increasing by the bytes of the keys, and as long as the cache is large. After
contents are put in, a search finds the last pair whose key is the trimmed clause, and
there are as many clauses as different keys. When pairs are added, what was there
stays, a new key has its first pair, and the number told is that by which the
cache has grown. A listing in any order that is put in again changes nothing, and
in another cache that compiles alike it makes all later uses reply as they would
in the first. The counts are changed by none of this. -/
theorem contents_obey_map_laws (s : Session) :
    ((s.step .pairs).1 = .pairs s.cache.pairs ∧ (s.step .size).1 = .count s.cache.pairs.length ∧
      s.cache.pairs.Pairwise fun p q => Text.encode p.1.toList < Text.encode q.1.toList) ∧
    (∀ pairs : List (String × String),
      let t := (s.step (.replace pairs)).2
      (∀ clause, (t.step (.find clause)).1 =
        .found (pairs.reverse.lookup (String.ofList (Text.trim clause.toList)))) ∧
      (t.step .size).1 = .count (pairs.map Prod.fst).dedup.length) ∧
    (∀ pairs : List (String × String),
      let t := (s.step (.extend pairs)).2
      (∀ k xpath : String, s.cache.entries[k]? = some xpath → t.cache.entries[k]? = some xpath) ∧
      (∀ k : String, s.cache.entries[k]? = none → t.cache.entries[k]? = pairs.lookup k) ∧
      ∃ n, (s.step (.extend pairs)).1 = .count n ∧ (t.step .size).1 = .count (s.cache.size + n)) ∧
    (∀ pairs, pairs.Perm s.cache.pairs →
      let t := (s.step (.replace pairs)).2
      t.cache = s.cache ∧ (t.step .pairs).1 = (s.step .pairs).1 ∧
        (t.step .size).1 = (s.step .size).1 ∧
        ∀ clause, (t.step (.find clause)).1 = (s.step (.find clause)).1 ∧
          (t.step (.contains clause)).1 = (s.step (.contains clause)).1) ∧
    (∀ other : Session, other.cache.folding = s.cache.folding →
      ∀ pairs, pairs.Perm s.cache.pairs → ∀ ops : List Op, (∀ op ∈ ops, op.asksCounts = false) →
        ((other.step (.replace pairs)).2.run ops).map Prod.fst = (s.run ops).map Prod.fst) ∧
    ∀ op : Op, op.isBulk →
      (s.step op).2.cache.hits = s.cache.hits ∧ (s.step op).2.cache.misses = s.cache.misses := by
  refine ⟨⟨step_pairs s, ?_, s.cache.pairs_increasing⟩, ?_, ?_, ?_, ?_, ?_⟩
  · rw [step_size, Cache.length_pairs]
  · intro pairs t
    -- what was filed is dropped: the entries are those of the pairs, the last one for each key
    have ht : t.cache = s.cache.replace pairs := step_replace s pairs
    refine ⟨fun clause => ?_, ?_⟩
    · rw [step_find, ht]
      exact congrArg Reply.found (Cache.getElem?_entriesOf pairs (Cache.key clause))
    · rw [step_size, ht, Cache.size_replace]
  · intro pairs t
    obtain ⟨hreply, ht⟩ : _ ∧ t.cache = (s.cache.extend pairs).2 := step_extend s pairs
    refine ⟨?_, ?_, _, hreply, ?_⟩
    · rw [ht]
      exact s.cache.extends_extend pairs
    · intro k hk
      rw [ht, Cache.getElem?_extend_of_missing hk]
    · rw [step_size, ht, Cache.size_extend]
  · intro pairs hpairs t
    -- in any order, the pairs that were listed make the cache they were listed from
    have ht : t.cache = s.cache := (step_replace s pairs).trans (Cache.replace_of_perm hpairs)
    refine ⟨ht, ?_, ?_, fun clause => ⟨?_, ?_⟩⟩
    · rw [step_pairs, step_pairs, ht]
    · rw [step_size, step_size, ht]
    · rw [step_find, step_find, ht]
    · rw [step_contains, step_contains, ht]
  · intro other hfolding pairs hpairs ops hops
    refine replies_of_alike ⟨?_, ?_⟩ hops
    · rw [step_replace]
      exact hfolding
    · rw [step_replace]
      exact Cache.entriesOf_of_perm hpairs
  · intro op hop
    exact counts_of_isBulk s hop

/-- Contents with a key that no search finds, one beyond ASCII and one that does
not compile. They are put in again in another order, taken over by a cache that
had a clause of its own and has seen a writer fail, and given one new key twice. -/
theorem contents_obey_map_laws_untrimmed :
    let s : Session := ⟨⟨.ascii, Cache.entriesOf [("q:nope", "//lost"), ("é", "//e"),
      (" p", "//b"), ("q:nope", "//other")], 2, 5⟩, false, []⟩
    let other : Session := ⟨⟨.ascii, Cache.entriesOf [("p", "//mine")], 0, 9⟩, true, []⟩
    let shuffled := [("é", "//e"), ("q:nope", "//other"), (" p", "//b")]
    let ops : List Op := [.compile "p, q:nope", .find " é ", .compileClause "z:nope"]
    let added := s.step (.extend [("p", "//1"), (" p", "//2"), ("p", "//3")])
    s.cache.pairs = [(" p", "//b"), ("q:nope", "//other"), ("é", "//e")] ∧
      (s.step (.replace shuffled)).2.cache = s.cache ∧
      ((other.step (.replace shuffled)).2.run ops).map Prod.fst = (s.run ops).map Prod.fst ∧
      added.2.cache.entries[" p"]? = some "//b" ∧ added.2.cache.entries["p"]? = some "//1" ∧
      added.2.cache.hits = 2 ∧ added.2.cache.misses = 5 := by
  intro s other shuffled ops added
  have hpairs : s.cache.pairs = [(" p", "//b"), ("q:nope", "//other"), ("é", "//e")] := by
    decide +kernel
  have hperm : shuffled.Perm s.cache.pairs := by
    rw [hpairs]
    decide
  obtain ⟨-, -, hextend, hreplace, hload, hcounts⟩ := contents_obey_map_laws s
  obtain ⟨hold, hnew, -⟩ := hextend [("p", "//1"), (" p", "//2"), ("p", "//3")]
  obtain ⟨hhits, hmisses⟩ := hcounts (.extend [("p", "//1"), (" p", "//2"), ("p", "//3")]) rfl
  refine ⟨hpairs, (hreplace shuffled hperm).1, hload other rfl shuffled hperm ops (by decide),
    hold " p" "//b" (by decide +kernel), ?_, hhits, hmisses⟩
  exact hnew "p" (by decide +kernel)

end Session

end SelectorPath
