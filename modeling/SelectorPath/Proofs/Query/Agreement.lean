/-
Queries agree with each other.

* `Query.outcomes_of_nodes`, `Query.outcomes_of_failure`, `Query.outcome_first`: the
  queries for one expression.
* `Query.closest_eq_some_iff`, `Query.closest_eq_none_iff`: the nearest ancestor that
  matches.
* `Query.findKeyed_succeeds_iff`, `Query.exists_of_findKeyed_eq_error`: several
  selectors under keys.
* `Query.queries_agree`: the main statement.
-/
import SelectorPath.Proofs.Query.Answers

namespace SelectorPath.Query

variable {ν ω : Type} {f : String → Except Error String}

/-! ### Nodes, results and their number -/

section Nodes

variable {p : Provider ν ω} {text : String} {language : Language} {context : Option ν}
  {nodes : List ν}

/-- Results stand in a list where their nodes stand. -/
lemma mapM_getElem? {results : List (Match ω)}
    (h : List.Forall₂ (fun node result => p.classify node = .ok result) nodes results) (i : Nat) :
    nodes[i]?.mapM p.classify = .ok results[i]? := by
  induction h generalizing i with
  | nil => rfl
  | @cons node result nodes results hnode _ ih =>
      cases i with
      | zero =>
          change some <$> p.classify node = .ok (some result)
          rw [hnode]
          rfl
      | succ i => exact ih i

variable [DecidableEq ν]

lemma findNodes_eq_ok_iff : outcome p f (.findNodes text language context) = .ok (.nodes nodes) ↔
    nodesFor p f text language context = .ok nodes :=
  Error.map_eq_ok_iff fun _ _ => Reply.nodes.inj

lemma findNodes_eq_error_iff {e : Failure} :
    outcome p f (.findNodes text language context) = .error e ↔
      nodesFor p f text language context = .error e :=
  Error.map_eq_error_iff

/-- If the nodes are found, the other queries for the same expression count, test,
classify or select them. -/
lemma outcomes_of_nodes (h : nodesFor p f text language context = .ok nodes) :
    outcome p f (.findNodes text language context) = .ok (.nodes nodes) ∧
      outcome p f (.count text language context) = .ok (.count nodes.length) ∧
      outcome p f (.has text language context) = .ok (.truth (0 < nodes.length)) ∧
      outcome p f (.find text language context) = .found <$> nodes.mapM p.classify ∧
      ∀ i, outcome p f (.findIndex text i language context) =
        .foundOne <$> nodes[i]?.mapM p.classify := by
  simp only [outcome, h]
  refine ⟨rfl, rfl, ?_, rfl, fun _ => rfl⟩
  cases nodes <;> rfl

/-- If they are not found, all of these queries fail alike. -/
lemma outcomes_of_failure {e : Failure} (h : nodesFor p f text language context = .error e) :
    outcome p f (.findNodes text language context) = .error e ∧
      outcome p f (.count text language context) = .error e ∧
      outcome p f (.has text language context) = .error e ∧
      outcome p f (.find text language context) = .error e ∧
      ∀ i, outcome p f (.findIndex text i language context) = .error e := by
  simp only [outcome, h]
  exact ⟨rfl, rfl, rfl, rfl, fun _ => rfl⟩

/-- Asking for the first node only is asking for the node at index zero. -/
lemma outcome_first (hfirst : ∀ xpath context, p.evaluate ("(" ++ xpath ++ ")[1]") context =
    (p.evaluate xpath context).map (List.take 1)) :
    outcome p f (.first text language context) =
      outcome p f (.findIndex text 0 language context) := by
  rw [outcome, outcome, nodesFor]
  cases expressionFor f text language context.isSome with
  | error e => rfl
  | ok xpath =>
      change Reply.foundOne <$> ((p.evaluate ("(" ++ xpath ++ ")[1]") context).mapError _ >>= _) =
        Reply.foundOne <$> ((p.evaluate xpath context).mapError _ >>= _)
      rw [hfirst]
      cases p.evaluate xpath context with
      | error e => rfl
      | ok nodes => cases nodes <;> rfl

/-- All results are there exactly if every node is classified. -/
lemma find_eq_ok_iff (h : nodesFor p f text language context = .ok nodes)
    {results : List (Match ω)} :
    outcome p f (.find text language context) = .ok (.found results) ↔
      nodes.mapM p.classify = .ok results := by
  rw [(outcomes_of_nodes h).2.2.2.1, Error.map_eq_ok_iff fun _ _ => Reply.found.inj]

/-- The first node that is of no known kind decides how the query fails. -/
lemma find_of_first_unknown (h : nodesFor p f text language context = .ok nodes)
    {before later : List ν} {node : ν} (hnodes : nodes = before ++ node :: later)
    (hbefore : ∀ n ∈ before, ∃ result, p.classify n = .ok result) {name : String}
    (hkind : p.kind node = .other name) :
    outcome p f (.find text language context) = .error (.unknownKind name) := by
  have hnode : p.classify node = .error (.unknownKind name) := by rw [Provider.classify, hkind]
  have hok : ∀ n ∈ before, (p.classify n).isOk := fun n hn =>
    (hbefore n hn).elim fun _ hresult => Error.isOk_of_eq_ok hresult
  rw [(outcomes_of_nodes h).2.2.2.1, hnodes, (Error.of_first_failure hok hnode later).2]
  rfl

end Nodes

/-! ### Matches and ancestors -/

/-- The last of some nodes for which something holds. -/
def IsLast (holds : ν → Prop) (nodes : List ν) (a : ν) : Prop :=
  ∃ before later, nodes = before ++ a :: later ∧ holds a ∧ ∀ b ∈ later, ¬holds b

/-- Searching from the end finds the last element that passes. -/
lemma find?_reverse_eq_some_iff {test : ν → Bool} {nodes : List ν} {a : ν} :
    nodes.reverse.find? test = some a ↔ IsLast (fun b => test b) nodes a := by
  rw [List.find?_eq_some_iff_append]
  constructor
  · rintro ⟨ha, later, before, hnodes, hlater⟩
    refine ⟨before.reverse, later.reverse, ?_, ha, ?_⟩
    · rw [← List.reverse_reverse nodes, hnodes]
      simp
    · simpa using hlater
  · rintro ⟨before, later, rfl, ha, hlater⟩
    exact ⟨ha, later.reverse, before.reverse, by simp, by simpa using hlater⟩

section Ancestors

variable [DecidableEq ν] {p : Provider ν ω} {selector : String}

/-- A node matches if it is among the nodes that are found in the whole document. -/
lemma isMatch_of_nodes {nodes : List ν} (h : nodesFor p f selector .css none = .ok nodes)
    (node : ν) : outcome p f (.isMatch node selector) = .ok (.truth (node ∈ nodes)) := by
  rw [outcome, h, ← List.contains_eq_mem]
  rfl

/-- The ancestors are asked for after the nodes, and only if there are any. -/
lemma closest_of_nodes {nodes : List ν} (h : nodesFor p f selector .css none = .ok nodes)
    (node : ν) : outcome p f (.closest node selector) = .node <$> nearest p node nodes := by
  rw [outcome, h]
  rfl

/-- A selector that fails matches nothing, and the failure is told. -/
lemma matches_of_failure {e : Failure} (h : nodesFor p f selector .css none = .error e) (node : ν) :
    outcome p f (.isMatch node selector) = .error e ∧
      outcome p f (.closest node selector) = .error e := by
  rw [outcome, outcome, h]
  exact ⟨rfl, rfl⟩

/-- With no nodes the ancestors are not asked for, and it makes no difference. -/
lemma nearest_of_ancestors {node : ν} {ancestors : List ν}
    (h : p.evaluate "ancestor::*" (some node) = .ok ancestors) (nodes : List ν) :
    nearest p node nodes = .ok (ancestors.reverse.find? (nodes.contains ·)) := by
  cases nodes with
  | nil =>
      have hnone : ancestors.reverse.find? (([] : List ν).contains ·) = none := by simp
      rw [hnone]
      rfl
  | cons first more =>
      rw [nearest, h]
      rfl

/-- Without ancestors there is no nearest one. -/
lemma nearest_ne_some {node : ν} {message : String}
    (h : p.evaluate "ancestor::*" (some node) = .error message) (nodes : List ν) (a : ν) :
    nearest p node nodes ≠ .ok (some a) := by
  cases nodes with
  | nil => simp [nearest, pure, Except.pure]
  | cons first more =>
      rw [nearest, h]
      exact fun hsome => by cases hsome

/-- The nearest ancestor is the last one that matches, in the order from the root
downwards. -/
lemma closest_eq_some_iff {node a : ν} :
    outcome p f (.closest node selector) = .ok (.node (some a)) ↔
      ∃ ancestors, p.evaluate "ancestor::*" (some node) = .ok ancestors ∧
        IsLast (fun b => outcome p f (.isMatch b selector) = .ok (.truth true)) ancestors a := by
  cases hnodes : nodesFor p f selector .css none with
  | error e =>
      simp only [(matches_of_failure hnodes _).1, (matches_of_failure hnodes _).2]
      refine iff_of_false (fun hsome => by cases hsome) ?_
      rintro ⟨ancestors, -, before, later, -, hmatch, -⟩
      cases hmatch
  | ok nodes =>
      simp only [closest_of_nodes hnodes, isMatch_of_nodes hnodes,
        Error.map_eq_ok_iff fun _ _ => Reply.node.inj]
      cases hancestors : p.evaluate "ancestor::*" (some node) with
      | error message =>
          exact iff_of_false (nearest_ne_some hancestors nodes a) fun h => by simp at h
      | ok ancestors =>
          rw [nearest_of_ancestors hancestors, Except.ok.injEq, find?_reverse_eq_some_iff]
          simp

/-- There is none exactly if the selector can be run and no ancestor matches. -/
lemma closest_eq_none_iff {node : ν} {ancestors : List ν}
    (h : p.evaluate "ancestor::*" (some node) = .ok ancestors) :
    outcome p f (.closest node selector) = .ok (.node none) ↔
      (∃ nodes, outcome p f (.findNodes selector .css none) = .ok (.nodes nodes)) ∧
        ∀ a ∈ ancestors, outcome p f (.isMatch a selector) ≠ .ok (.truth true) := by
  cases hnodes : nodesFor p f selector .css none with
  | error e =>
      rw [(matches_of_failure hnodes node).2, (outcomes_of_failure hnodes).1]
      refine iff_of_false (fun hnone => by cases hnone) ?_
      rintro ⟨⟨nodes, hfound⟩, -⟩
      cases hfound
  | ok nodes =>
      simp only [closest_of_nodes hnodes, isMatch_of_nodes hnodes, (outcomes_of_nodes hnodes).1,
        Error.map_eq_ok_iff fun _ _ => Reply.node.inj, nearest_of_ancestors h]
      simp

end Ancestors

/-! ### Several selectors -/

section Keyed

variable [DecidableEq ν] {p : Provider ν ω} {context : Option ν}

/-- The nodes for one pair, under its key. -/
def keyedFor (p : Provider ν ω) (f : String → Except Error String) (context : Option ν)
    (pair : String × String) : Except Failure (String × List ν) :=
  (pair.1, ·) <$> nodesFor p f pair.2 .css context

/-- One of several selectors keeps its key. -/
lemma keyedFor_eq_ok_iff {pair : String × String} {result : String × List ν} :
    keyedFor p f context pair = .ok result ↔ result.1 = pair.1 ∧
      outcome p f (.findNodes pair.2 .css context) = .ok (.nodes result.2) := by
  obtain ⟨key, nodes⟩ := result
  rw [findNodes_eq_ok_iff, keyedFor]
  cases nodesFor p f pair.2 .css context <;> simp [Functor.map, Except.map, eq_comm]

variable {pairs : List (String × String)}

lemma findKeyed_eq_ok_iff {results : List (String × List ν)} :
    outcome p f (.findKeyed pairs context) = .ok (.keyed results) ↔
      pairs.mapM (keyedFor p f context) = .ok results :=
  Error.map_eq_ok_iff fun _ _ => Reply.keyed.inj

/-- Several selectors under keys succeed exactly if each of them does by itself. -/
lemma findKeyed_succeeds_iff :
    (∃ results, outcome p f (.findKeyed pairs context) = .ok (.keyed results)) ↔
      ∀ pair ∈ pairs, ∃ nodes, outcome p f (.findNodes pair.2 .css context) =
        .ok (.nodes nodes) := by
  simp only [findKeyed_eq_ok_iff, Error.exists_mapM_iff, keyedFor_eq_ok_iff]
  refine forall₂_congr fun pair _ => ⟨?_, ?_⟩
  · rintro ⟨result, -, hnodes⟩
    exact ⟨result.2, hnodes⟩
  · rintro ⟨nodes, hnodes⟩
    exact ⟨(pair.1, nodes), rfl, hnodes⟩

/-- If they fail, it is as one of them does by itself. Which one is left open, since they
may be run at once. -/
lemma exists_of_findKeyed_eq_error {e : Failure}
    (h : outcome p f (.findKeyed pairs context) = .error e) :
    ∃ pair ∈ pairs, outcome p f (.findNodes pair.2 .css context) = .error e := by
  have hpairs : pairs.mapM (keyedFor p f context) = .error e := Error.map_eq_error_iff.mp h
  obtain ⟨pair, hmem, hpair⟩ := Error.exists_of_mapM_eq_error hpairs
  exact ⟨pair, hmem, findNodes_eq_error_iff.mpr (Error.map_eq_error_iff.mp hpair)⟩

end Keyed

/-! ### Agreement -/

/-- **Queries agree with each other**, whatever the state of the cache, for every
provider that selects the first node when it is asked for the first only. In any row
of queries each is answered as it would be at first. An expression selects nodes, and
then they are counted, or it fails, and then all queries fail alike. Results are
found if all nodes are results, each at its index; if not, the first that is none is
reported. A node matches if it is among the nodes of the selector, and the closest is
the last ancestor that matches. Nodes under keys are found if they are for each
selector, in order; if not, a selector has failed. -/
theorem queries_agree [DecidableEq ν] (p : Provider ν ω)
    (hfirst : ∀ xpath context, p.evaluate ("(" ++ xpath ++ ")[1]") context =
      (p.evaluate xpath context).map (List.take 1)) (s : State ν) :
    let reply := fun op => (step p s op).1
    (∀ ops, (run p s ops).map Prod.fst = ops.map reply) ∧
    (∀ text language context,
      reply (.first text language context) = reply (.findIndex text 0 language context) ∧
      ((∃ e, reply (.findNodes text language context) = .error e ∧
          reply (.count text language context) = .error e ∧
          reply (.has text language context) = .error e ∧
          reply (.find text language context) = .error e ∧
          ∀ i, reply (.findIndex text i language context) = .error e) ∨
        ∃ nodes, reply (.findNodes text language context) = .ok (.nodes nodes) ∧
          reply (.count text language context) = .ok (.count nodes.length) ∧
          reply (.has text language context) = .ok (.truth (0 < nodes.length)) ∧
          ((∃ results, reply (.find text language context) = .ok (.found results)) ↔
            ∀ node ∈ nodes, ∃ result, p.classify node = .ok result) ∧
          (∀ results, reply (.find text language context) = .ok (.found results) →
            List.Forall₂ (fun node result => p.classify node = .ok result) nodes results ∧
            ∀ i, reply (.findIndex text i language context) = .ok (.foundOne results[i]?)) ∧
          ∀ before node later, nodes = before ++ node :: later →
            (∀ n ∈ before, ∃ result, p.classify n = .ok result) →
              ∀ name, p.kind node = .other name →
                reply (.find text language context) = .error (.unknownKind name))) ∧
    (∀ node selector,
      (∀ nodes, reply (.findNodes selector .css none) = .ok (.nodes nodes) →
        reply (.isMatch node selector) = .ok (.truth (node ∈ nodes))) ∧
      (∀ e, reply (.findNodes selector .css none) = .error e →
        reply (.isMatch node selector) = .error e ∧ reply (.closest node selector) = .error e) ∧
      (∀ a, reply (.closest node selector) = .ok (.node (some a)) ↔
        ∃ ancestors, p.evaluate "ancestor::*" (some node) = .ok ancestors ∧
          IsLast (fun b => reply (.isMatch b selector) = .ok (.truth true)) ancestors a) ∧
      ∀ ancestors, p.evaluate "ancestor::*" (some node) = .ok ancestors →
        (reply (.closest node selector) = .ok (.node none) ↔
          (∃ nodes, reply (.findNodes selector .css none) = .ok (.nodes nodes)) ∧
            ∀ a ∈ ancestors, reply (.isMatch a selector) ≠ .ok (.truth true))) ∧
    ∀ pairs context,
      ((∃ results, reply (.findKeyed pairs context) = .ok (.keyed results)) ↔
        ∀ pair ∈ pairs, ∃ nodes, reply (.findNodes pair.2 .css context) = .ok (.nodes nodes)) ∧
      (∀ results, reply (.findKeyed pairs context) = .ok (.keyed results) →
        List.Forall₂ (fun pair result => result.1 = pair.1 ∧
          reply (.findNodes pair.2 .css context) = .ok (.nodes result.2)) pairs results) ∧
      ∀ e, reply (.findKeyed pairs context) = .error e →
        ∃ pair ∈ pairs, reply (.findNodes pair.2 .css context) = .error e := by
  intro reply
  -- all answers are functions of what the cache answers at first, which no query changes
  have hreply : reply = outcome p s.session.cache.answer := funext (step_fst p s)
  rw [hreply]
  refine ⟨replies_run p s, fun text language context => ⟨outcome_first hfirst, ?_⟩,
    fun node selector => ⟨?_, ?_, fun a => closest_eq_some_iff,
      fun ancestors hancestors => closest_eq_none_iff hancestors⟩, fun pairs context => ?_⟩
  · cases hnodes : nodesFor p s.session.cache.answer text language context with
    | error e => exact .inl ⟨e, outcomes_of_failure hnodes⟩
    | ok nodes =>
        obtain ⟨hfound, hcount, hhas, -, hindex⟩ := outcomes_of_nodes hnodes
        refine .inr ⟨nodes, hfound, hcount, hhas, ?_, fun results hresults => ?_,
          fun before node later heq hbefore name hkind =>
            find_of_first_unknown hnodes heq hbefore hkind⟩
        · simp only [find_eq_ok_iff hnodes, Error.exists_mapM_iff]
        · have hall := Error.mapM_eq_ok.mp ((find_eq_ok_iff hnodes).mp hresults)
          refine ⟨hall, fun i => ?_⟩
          rw [hindex, mapM_getElem? hall]
          rfl
  · intro nodes hnodes
    exact isMatch_of_nodes (findNodes_eq_ok_iff.mp hnodes) node
  · intro e herror
    exact matches_of_failure (findNodes_eq_error_iff.mp herror) node
  · refine ⟨findKeyed_succeeds_iff, fun results hresults => ?_,
      fun e => exists_of_findKeyed_eq_error⟩
    have hall := Error.mapM_eq_ok.mp (findKeyed_eq_ok_iff.mp hresults)
    exact hall.imp fun pair result => keyedFor_eq_ok_iff.mp

/-- The nodes of a small document, by the letters of an expression. -/
def sampleNodes (letters : List Char) (context : Option Nat) : Except String (List Nat) :=
  match String.ofList letters, context with
  | "p", _ => .ok [1, 4]
  | "q", none => .ok [2, 7, 5]
  | "ancestor", some _ => .ok [0, 1, 4, 3]
  | "r", _ => .error "lost"
  | _, _ => .ok []

/-- A small document, of whose nodes one is a comment. An expression in parentheses
selects the first node only. -/
def sample : Provider Nat Nat where
  evaluate xpath context :=
    let nodes := sampleNodes (xpath.toList.filter Char.isAlpha) context
    if xpath.toList.head? = some '(' then nodes.map (List.take 1) else nodes
  kind node := if node = 7 then .other "comment" else .element
  value _ := ""
  wrap node := node

/-- The provider of the sample knows about `[1]`. -/
lemma sample_evaluate_first (xpath : String) (context : Option Nat) :
    sample.evaluate ("(" ++ xpath ++ ")[1]") context =
      (sample.evaluate xpath context).map (List.take 1) := by
  have hletters : ("(" ++ xpath ++ ")[1]").toList.filter Char.isAlpha =
      xpath.toList.filter Char.isAlpha := by
    have hopening : "(".toList.filter Char.isAlpha = [] := by decide
    have hclosing : ")[1]".toList.filter Char.isAlpha = [] := by decide
    rw [String.toList_append, String.toList_append, List.filter_append, List.filter_append,
      hopening, hclosing, List.nil_append, List.append_nil]
  have hhead : ("(" ++ xpath ++ ")[1]").toList.head? = some '(' := by simp
  simp only [sample, hletters, hhead, if_true]
  -- taking the first of what is the first already changes nothing
  cases sampleNodes (xpath.toList.filter Char.isAlpha) context with
  | error message => split <;> rfl
  | ok nodes =>
      split
      · simp [Except.map, List.take_take]
      · rfl

/-- A document with nodes of several kinds, one of which is not known, and a cache with a
form of its own for a clause. The lock has been left poisoned. -/
theorem queries_agree_sample :
    let s : State Nat := ⟨⟨⟨.ascii, Cache.entriesOf [("t", "//p")], 2, 1⟩, true, []⟩, []⟩
    let reply := fun op => (step sample s op).1
    (run sample s [.count "q" .css none, .find "r" .css none, .closest 5 "t"]).map Prod.fst =
        [reply (.count "q" .css none), reply (.find "r" .css none), reply (.closest 5 "t")] ∧
      reply (.count "q" .css none) = .ok (.count 3) ∧
      reply (.find "q" .css none) = .error (.unknownKind "comment") ∧
      reply (.find "r" .css none) = .error (.provider "lost") ∧
      reply (.first "q" .css none) = reply (.findIndex "q" 0 .css none) ∧
      reply (.closest 5 "t") = .ok (.node (some 4)) ∧
      reply (.closest 5 "s") = .ok (.node none) ∧
      ∃ results, reply (.findKeyed [("a", "t"), ("b", "q")] none) = .ok (.keyed results) := by
  intro s reply
  obtain ⟨hrun, hnodes, hmatches, hkeyed⟩ := queries_agree sample sample_evaluate_first s
  -- what the selectors of the example select
  have hfound : ∀ text nodes, nodesFor sample s.session.cache.answer text .css none = .ok nodes →
      reply (.findNodes text .css none) = .ok (.nodes nodes) := fun text nodes h =>
    (step_fst sample s _).trans (findNodes_eq_ok_iff.mpr h)
  have hq := hfound "q" [2, 7, 5] (by decide +kernel)
  have ht := hfound "t" [1, 4] (by decide +kernel)
  have hs := hfound "s" [] (by decide +kernel)
  have hr : reply (.findNodes "r" .css none) = .error (.provider "lost") :=
    (step_fst sample s _).trans (findNodes_eq_error_iff.mpr (by decide +kernel))
  have hancestors : sample.evaluate "ancestor::*" (some 5) = .ok [0, 1, 4, 3] := by decide +kernel
  refine ⟨hrun _, ?_, ?_, ?_, (hnodes "q" .css none).1, ?_, ?_, ?_⟩
  · obtain ⟨-, ⟨e, herror, -⟩ | ⟨nodes, hall, hcount, -⟩⟩ := hnodes "q" .css none
    · cases herror.symm.trans hq
    · cases hall.symm.trans hq
      exact hcount
  · obtain ⟨-, ⟨e, herror, -⟩ | ⟨nodes, hall, -, -, -, -, hunknown⟩⟩ := hnodes "q" .css none
    · cases herror.symm.trans hq
    · cases hall.symm.trans hq
      refine hunknown [2] 7 [5] rfl (fun n hn => ?_) "comment" rfl
      obtain rfl := List.mem_singleton.mp hn
      exact ⟨.element 2, rfl⟩
  · obtain ⟨-, ⟨e, herror, -, -, hfind, -⟩ | ⟨nodes, hall, -⟩⟩ := hnodes "r" .css none
    · cases herror.symm.trans hr
      exact hfind
    · cases hall.symm.trans hr
  · refine ((hmatches 5 "t").2.2.1 4).mpr ⟨_, hancestors, [0, 1], [3], rfl, ?_, fun b hb => ?_⟩
    · exact (hmatches 4 "t").1 _ ht
    · obtain rfl := List.mem_singleton.mp hb
      intro htrue
      cases htrue.symm.trans ((hmatches 3 "t").1 _ ht)
  · refine ((hmatches 5 "s").2.2.2 _ hancestors).mpr ⟨⟨_, hs⟩, fun a _ htrue => ?_⟩
    have hfalse := (hmatches a "s").1 _ hs
    simp [htrue] at hfalse
  · refine (hkeyed _ none).1.mpr fun pair hpair => ?_
    simp only [List.mem_cons, List.not_mem_nil, or_false] at hpair
    rcases hpair with rfl | rfl
    · exact ⟨_, ht⟩
    · exact ⟨_, hq⟩

end SelectorPath.Query
