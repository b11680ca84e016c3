/-
What the operations of a cache do to its contents.

* `Entries.Extends`: contents in which everything filed earlier is still filed,
  in the same form. Publishing a clause and adding pairs only extend
  (`extends_publish`, `extends_extend`), and looking up changes nothing.
* `Cache.getElem?_entriesOf`, `Cache.entriesOf_of_perm`: contents put together
  from pairs, and from a listing of other contents.
* `Cache.getElem?_foldl_add`, `Cache.size_foldl_add`: contents with pairs added.
* `Cache.nodup_keys`, `Cache.size_eq_length_dedup`: no key is filed twice.
-/
import Mathlib.Data.List.Dedup
import Mathlib.Data.List.Nodup
import Mathlib.Tactic.Common
import SelectorPath.Cache.Basic

namespace SelectorPath

namespace Entries

/-- Everything that is filed in `old` is filed in `new`, in the same form. -/
def Extends (new old : Entries) : Prop :=
  ∀ k xpath : String, old[k]? = some xpath → new[k]? = some xpath

lemma Extends.refl (entries : Entries) : Extends entries entries := fun _ _ h => h

lemma Extends.trans {a b c : Entries} (hab : Extends a b) (hbc : Extends b c) : Extends a c :=
  fun k xpath h => hab k xpath (hbc k xpath h)

/-- A new key may be filed. -/
lemma extends_insert {entries : Entries} {k : String} (h : entries[k]? = none) (xpath : String) :
    Extends (entries.insert k xpath) entries := by
  intro k' xpath' h'
  have hne : k ≠ k' := by
    rintro rfl
    rw [h] at h'
    simp at h'
  rw [Std.ExtTreeMap.getElem?_insert]
  simpa [hne] using h'

lemma size_insert_of_missing {entries : Entries} {k : String} (h : entries[k]? = none)
    (xpath : String) : (entries.insert k xpath).size = entries.size + 1 := by
  have hmem : k ∉ entries := by
    rw [Std.ExtTreeMap.mem_iff_isSome_getElem?, h]
    exact Bool.false_ne_true
  rw [Std.ExtTreeMap.size_insert, if_neg (by simpa using hmem)]

/-- Contents are the same if the same is filed. -/
lemma ext_filed {entries entries' : Entries}
    (h : ∀ k xpath : String, entries[k]? = some xpath ↔ entries'[k]? = some xpath) :
    entries = entries' :=
  Std.ExtTreeMap.ext_getElem? fun k => Option.ext fun xpath => h k xpath

end Entries

namespace Cache

open Entries

@[simp] lemma folding_lookup (c : Cache) (k : String) : (c.lookup k).2.folding = c.folding := by
  rw [lookup]
  split <;> rfl

@[simp] lemma folding_publish (c : Cache) (k xpath : String) :
    (c.publish k xpath).2.folding = c.folding := by
  rw [publish]
  split <;> rfl

/-- What publishing gives back is what is filed then. -/
lemma getElem?_publish_self (c : Cache) (k xpath : String) :
    (c.publish k xpath).2.entries[k]? = some (c.publish k xpath).1 := by
  rw [getElem?_publish, if_pos rfl, fst_publish]

/-- One key more is filed, if it was not. -/
lemma mem_publish_iff (c : Cache) (k xpath k' : String) :
    k' ∈ (c.publish k xpath).2.entries ↔ k' = k ∨ k' ∈ c.entries := by
  rw [Std.ExtTreeMap.mem_iff_isSome_getElem?, Std.ExtTreeMap.mem_iff_isSome_getElem?,
    getElem?_publish]
  split_ifs with heq
  · simp [heq]
  · simp [heq]

/-- Every question is counted. -/
lemma count_lookup (c : Cache) (k : String) :
    (c.lookup k).2.hits + (c.lookup k).2.misses = c.hits + c.misses + 1 := by
  rw [lookup]
  split
  · exact Nat.add_right_comm c.hits 1 c.misses
  · rfl

@[simp] lemma hits_publish (c : Cache) (k xpath : String) :
    (c.publish k xpath).2.hits = c.hits := by
  rw [publish]
  split <;> rfl

@[simp] lemma misses_publish (c : Cache) (k xpath : String) :
    (c.publish k xpath).2.misses = c.misses := by
  rw [publish]
  split <;> rfl

/-- What is published does not replace anything. -/
lemma extends_publish (c : Cache) (k xpath : String) :
    Extends (c.publish k xpath).2.entries c.entries := by
  rw [publish]
  split
  · exact Extends.refl _
  · next h => exact extends_insert h xpath

/-- The listing has what is filed, and nothing else. -/
lemma mem_pairs_iff (c : Cache) {k xpath : String} :
    (k, xpath) ∈ c.pairs ↔ c.entries[k]? = some xpath :=
  Std.ExtTreeMap.mem_toList_iff_getElem?_eq_some

/-! ### Contents put together from pairs -/

/-- Of the pairs with one key the last one counts. -/
lemma getElem?_entriesOf (pairs : List (String × String)) (k : String) :
    (entriesOf pairs)[k]? = pairs.reverse.lookup k := by
  -- the fold begins with contents that count where no pair does
  have key : ∀ entries : Entries,
      (pairs.foldl (fun entries pair => entries.insert pair.1 pair.2) entries)[k]? =
        (pairs.reverse.lookup k).or entries[k]? := by
    induction pairs with
    | nil => exact fun entries => rfl
    | cons pair pairs ih =>
        obtain ⟨k', xpath⟩ := pair
        intro entries
        rw [List.foldl_cons, ih, List.reverse_cons, List.lookup_append, Option.or_assoc,
          Std.ExtTreeMap.getElem?_insert, List.lookup_cons]
        by_cases hk : k = k'
        · simp [hk]
        · simp [beq_eq_false_iff_ne.mpr hk, Ne.symm hk]
  rw [entriesOf, key, Std.ExtTreeMap.getElem?_empty, Option.or_none]

/-- They hold these pairs only. -/
lemma mem_of_getElem?_entriesOf {pairs : List (String × String)} {k xpath : String}
    (h : (entriesOf pairs)[k]? = some xpath) : (k, xpath) ∈ pairs := by
  rw [getElem?_entriesOf, List.lookup_eq_some_iff] at h
  obtain ⟨later, before, hpairs, -⟩ := h
  have hmem : (k, xpath) ∈ pairs.reverse := by
    rw [hpairs]
    exact List.mem_append_right later List.mem_cons_self
  exact List.mem_reverse.mp hmem

/-- Every key that is given is filed. -/
lemma mem_entriesOf_iff {pairs : List (String × String)} {k : String} :
    k ∈ entriesOf pairs ↔ k ∈ pairs.map Prod.fst := by
  rw [Std.ExtTreeMap.mem_iff_isSome_getElem?, getElem?_entriesOf, List.lookup_isSome_iff,
    List.mem_map]
  refine exists_congr fun pair => ?_
  rw [List.mem_reverse, beq_iff_eq, eq_comm]

/-- Contents listed in any order are put together again. -/
lemma entriesOf_of_perm {c : Cache} {pairs : List (String × String)} (h : pairs.Perm c.pairs) :
    entriesOf pairs = c.entries := by
  have hfiled : ∀ k xpath : String, (entriesOf pairs)[k]? = some xpath →
      c.entries[k]? = some xpath :=
    fun k xpath hk => c.mem_pairs_iff.mp (h.mem_iff.mp (mem_of_getElem?_entriesOf hk))
  refine Std.ExtTreeMap.ext_getElem? fun k => ?_
  cases hk : (entriesOf pairs)[k]? with
  | some xpath => exact (hfiled k xpath hk).symm
  | none =>
      refine (Option.eq_none_iff_forall_ne_some.mpr fun xpath hold => ?_).symm
      have hmem : (k, xpath) ∈ pairs := h.mem_iff.mpr (c.mem_pairs_iff.mpr hold)
      have hnew : k ∈ entriesOf pairs := mem_entriesOf_iff.mpr (List.mem_map_of_mem hmem)
      rw [Std.ExtTreeMap.mem_iff_isSome_getElem?, hk] at hnew
      exact Bool.false_ne_true hnew

/-- A cache is not changed by its own listing, in any order. -/
lemma replace_of_perm {c : Cache} {pairs : List (String × String)} (h : pairs.Perm c.pairs) :
    c.replace pairs = c := by
  rw [replace, entriesOf_of_perm h]

/-! ### Pairs added to contents -/

/-- A key that is there keeps its form, and of the pairs with a new key the
first one counts. -/
lemma getElem?_foldl_add (pairs : List (String × String)) (sofar : Nat × Entries) (k : String) :
    (pairs.foldl add sofar).2[k]? = sofar.2[k]?.or (pairs.lookup k) := by
  induction pairs generalizing sofar with
  | nil => simp
  | cons pair pairs ih =>
      obtain ⟨k', xpath⟩ := pair
      rw [List.foldl_cons, ih, add, List.lookup_cons]
      split_ifs with hmem
      · by_cases hk : k = k'
        · obtain ⟨filed, hfiled⟩ := Option.isSome_iff_exists.mp
            (Std.ExtTreeMap.mem_iff_isSome_getElem?.mp hmem)
          rw [hk, hfiled, Option.some_or, Option.some_or]
        · rw [beq_eq_false_iff_ne.mpr hk]
      · rw [Std.ExtTreeMap.getElem?_insert]
        by_cases hk : k = k'
        · simp [hk, Std.ExtTreeMap.getElem?_eq_none hmem]
        · simp [beq_eq_false_iff_ne.mpr hk, Ne.symm hk]

/-- Adding pairs changes nothing that is filed already. -/
lemma extends_extend (c : Cache) (pairs : List (String × String)) :
    Extends (c.extend pairs).2.entries c.entries := by
  intro k xpath h
  exact (getElem?_foldl_add pairs (0, c.entries) k).trans (by rw [h, Option.some_or])

/-- The count grows with the contents. -/
lemma size_foldl_add (pairs : List (String × String)) (sofar : Nat × Entries) :
    (pairs.foldl add sofar).1 + sofar.2.size = sofar.1 + (pairs.foldl add sofar).2.size := by
  induction pairs generalizing sofar with
  | nil => rfl
  | cons pair pairs ih =>
      have hstep : (add sofar pair).1 + sofar.2.size = sofar.1 + (add sofar pair).2.size := by
        rw [add]
        split_ifs with hmem
        · rfl
        · rw [size_insert_of_missing (Std.ExtTreeMap.getElem?_eq_none hmem)]
          omega
      have hrest := ih (add sofar pair)
      rw [List.foldl_cons]
      omega

/-! ### Keys -/

/-- No key is filed twice. -/
lemma nodup_keys (c : Cache) : (c.pairs.map Prod.fst).Nodup := by
  rw [List.Nodup, List.pairwise_map]
  refine (Std.ExtTreeMap.distinct_keys_toList (t := c.entries)).imp fun hne heq => hne ?_
  simp [heq]

/-- How many keys there are, if it is known which. -/
lemma size_eq_length_dedup {entries : Entries} {ks : List String}
    (h : ∀ k, k ∈ entries ↔ k ∈ ks) : entries.size = ks.dedup.length := by
  have hnodup : entries.keys.Nodup :=
    (Std.ExtTreeMap.distinct_keys (t := entries)).imp fun hne heq => hne (by simp [heq])
  have hperm : entries.keys.Perm ks.dedup := by
    refine (List.perm_ext_iff_of_nodup hnodup (List.nodup_dedup ks)).mpr fun k => ?_
    rw [Std.ExtTreeMap.mem_keys, List.mem_dedup, h]
  rw [← Std.ExtTreeMap.length_keys, hperm.length_eq]

end Cache

end SelectorPath
