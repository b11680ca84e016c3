/-
What queries answer.

A query goes through the cache, which it changes, and calls the provider. What the
cache tells does not change, though. So what a query answers is a function of this
and of the provider, whatever queries were made before.

* `Query.Answers`: an action answers the same on all caches that tell the same, and
  leaves what they tell; with rules for the actions that queries are made of.
* `Query.nodesFor`, `Query.outcome`: what a query answers.
* `Query.answers_perform`: every query is such an action.
* `Query.step_fst`, `Query.replies_run`: queries one by one, and in a row.
-/
import SelectorPath.Proofs.Cache.Answers
import SelectorPath.Query.Session

namespace SelectorPath.Query

variable {ν ω α β : Type} {f : String → Except Error String}

/-! ### Answers that do not depend on the past -/

/-- The action answers this on every cache that tells what `f` says, and the cache
tells the same afterwards. -/
def Answers (f : String → Except Error String) (action : Action ν α)
    (result : Except Failure α) : Prop :=
  ∀ s : State ν, s.session.cache.answer = f → (action.run.run s).1 = result ∧
    (action.run.run s).2.session.cache.answer = f

namespace Answers

variable {action : Action ν α} {result : Except Failure α}

lemma pure (a : α) : Answers f (Pure.pure a : Action ν α) (.ok a) := fun _ hs => ⟨rfl, hs⟩

lemma ofExcept {ε : Type} (failure : ε → Failure) (x : Except ε α) :
    Answers f (Query.ofExcept failure x : Action ν α) (x.mapError failure) := by
  cases x with
  | ok a => exact pure a
  | error e => exact fun _ hs => ⟨rfl, hs⟩

lemma given (x : Except Failure α) : Answers f (Query.ofExcept id x : Action ν α) x := by
  have h : Answers f (Query.ofExcept id x : Action ν α) (x.mapError id) := ofExcept id x
  cases x <;> exact h

/-- What the first part results in decides how the second goes on. -/
lemma bind (h : Answers f action result) {next : α → Action ν β}
    {results : α → Except Failure β} (hnext : ∀ a, Answers f (next a) (results a)) :
    Answers f (action >>= next) (result >>= results) := by
  intro s hs
  obtain ⟨hresult, hafter⟩ := h s hs
  have hrun : (action >>= next).run.run s =
      (ExceptT.bindCont next (action.run.run s).1).run (action.run.run s).2 := rfl
  rw [hrun, hresult]
  cases result with
  | error e => exact ⟨rfl, hafter⟩
  | ok a => exact hnext a _ hafter

lemma map (h : Answers f action result) (g : α → β) : Answers f (g <$> action) (g <$> result) := by
  have hbind := h.bind fun a => pure (g a)
  cases result <;> exact hbind

/-- Steps for the elements of a list, up to the first that fails. -/
lemma mapM {γ : Type} {step : γ → Action ν α} {results : γ → Except Failure α}
    (h : ∀ x, Answers f (step x) (results x)) (xs : List γ) :
    Answers f (xs.mapM step) (xs.mapM results) := by
  induction xs with
  | nil => exact pure []
  | cons x xs ih =>
      rw [List.mapM_cons, List.mapM_cons]
      exact (h x).bind fun y => ih.bind fun ys => pure (y :: ys)

/-- A failure is a result, and so nothing fails. -/
lemma attempt (h : Answers f action result) : Answers f (Query.attempt action) (.ok result) := by
  intro s hs
  obtain ⟨hresult, hafter⟩ := h s hs
  exact ⟨congrArg Except.ok hresult, hafter⟩

/-- A selector compiles to what the cache tells of its clauses, and afterwards the cache
tells the same. -/
lemma compile (text : String) :
    Answers f (withCache (Session.compile text) : Action ν _) (.ok (Selector.resolve f text)) := by
  intro s hs
  obtain ⟨hresult, hcache⟩ := Session.run_compile text s.session
  rw [hs] at hresult
  refine ⟨congrArg Except.ok hresult, ?_⟩
  have hafter : ((withCache (Session.compile text) : Action ν _).run.run s).2.session.cache =
      s.session.cache.settleAll (Selector.asks s.session.cache.answer text) := hcache
  rw [hafter, Cache.answer_settleAll, hs]

end Answers

/-! ### What queries answer -/

/-- The expression that the provider is given. -/
def expressionFor (f : String → Except Error String) (text : String) (language : Language)
    (relative : Bool) : Except Failure String :=
  match language with
  | .xpath => return text
  | .css => do
    let compiled ← (Selector.resolve f text).mapError .selector
    return if relative then compiled.relative else compiled.xpath

/-- The nodes that an expression selects. -/
def nodesFor (p : Provider ν ω) (f : String → Except Error String) (text : String)
    (language : Language) (context : Option ν) : Except Failure (List ν) := do
  let xpath ← expressionFor f text language context.isSome
  (p.evaluate xpath context).mapError .provider

/-- The nearest ancestor of a node among those that were selected. -/
def nearest [DecidableEq ν] (p : Provider ν ω) (node : ν) (matched : List ν) :
    Except Failure (Option ν) :=
  if matched.isEmpty then return none
  else do
    let ancestors ← (p.evaluate "ancestor::*" (some node)).mapError .provider
    return ancestors.reverse.find? (matched.contains ·)

/-- What a query answers, given what the cache tells. -/
def outcome [DecidableEq ν] (p : Provider ν ω) (f : String → Except Error String) :
    Op ν → Except Failure (Reply ν ω)
  | .expression text language relative => .text <$> expressionFor f text language relative
  | .findNodes text language context => .nodes <$> nodesFor p f text language context
  | .find text language context => .found <$> do
    (← nodesFor p f text language context).mapM p.classify
  | .findIndex text index language context => .foundOne <$> do
    (← nodesFor p f text language context)[index]?.mapM p.classify
  | .first text language context => .foundOne <$> do
    let xpath ← expressionFor f text language context.isSome
    let nodes ← (p.evaluate ("(" ++ xpath ++ ")[1]") context).mapError .provider
    nodes.head?.mapM p.classify
  | .has text language context => .truth <$> do
    return !(← nodesFor p f text language context).isEmpty
  | .count text language context => .count <$> do
    return (← nodesFor p f text language context).length
  | .isMatch node selector => .truth <$> do
    return (← nodesFor p f selector .css none).contains node
  | .closest node selector => .node <$> do
    nearest p node (← nodesFor p f selector .css none)
  | .classify node => (.foundOne ∘ some) <$> p.classify node
  | .findEach selectors context => .batch <$>
    .ok (selectors.map fun selector => nodesFor p f selector .css context)
  | .findKeyed pairs context => .keyed <$> pairs.mapM fun pair => do
    return (pair.1, ← nodesFor p f pair.2 .css context)

section Queries

variable (p : Provider ν ω)

/-- The expression for the provider is the same whenever it is asked for. -/
lemma answers_expression (text : String) (language : Language) (relative : Bool) :
    Answers f (expression text language relative : Action ν _)
      (expressionFor f text language relative) := by
  cases language with
  | xpath => exact .pure text
  | css =>
      exact (Answers.compile text).bind fun result =>
        (Answers.ofExcept .selector result).bind fun compiled => .pure _

lemma answers_evaluate (xpath : String) (context : Option ν) :
    Answers f (evaluate p xpath context) ((p.evaluate xpath context).mapError .provider) := by
  have hrecord : Answers f (withCache (Session.record (.evaluating xpath)) : Action ν Unit)
      (.ok ()) := fun _ hs => ⟨rfl, hs⟩
  have hcall : Answers f (modify fun s => { s with calls := s.calls ++ [(xpath, context)] } :
      Action ν PUnit) (.ok ()) := fun _ hs => ⟨rfl, hs⟩
  exact hrecord.bind fun _ => hcall.bind fun _ => .ofExcept .provider _

/-- So are the nodes, if the provider is always the same. -/
lemma answers_findNodes (text : String) (language : Language) (context : Option ν) :
    Answers f (findNodes p text language context) (nodesFor p f text language context) :=
  (answers_expression text language context.isSome).bind fun xpath =>
    answers_evaluate p xpath context

lemma answers_classify (node : ν) : Answers f (classify p node) (p.classify node) :=
  .given (p.classify node)

lemma answers_classifyOption (node : Option ν) :
    Answers f (classifyOption p node) (node.mapM p.classify) := by
  cases node with
  | none => exact .pure none
  | some node => exact (answers_classify p node).map some

variable [DecidableEq ν]

/-- Where nothing matches, the provider is not asked for ancestors. -/
lemma answers_nearest (node : ν) (matched : List ν) :
    Answers f (if matched.isEmpty then Pure.pure none
      else do
        let ancestors ← evaluate p "ancestor::*" (some node)
        return ancestors.reverse.find? (matched.contains ·)) (nearest p node matched) := by
  rw [nearest]
  split
  · exact .pure none
  · exact (answers_evaluate p "ancestor::*" (some node)).bind fun ancestors => .pure _

/-- What a query answers depends on what the cache tells only, and it leaves that as
it is. -/
theorem answers_perform (op : Op ν) : Answers f (perform p op) (outcome p f op) := by
  cases op with
  | expression text language relative => exact (answers_expression text language relative).map _
  | findNodes text language context => exact (answers_findNodes p text language context).map _
  | find text language context =>
      exact ((answers_findNodes p text language context).bind fun nodes =>
        .given (nodes.mapM p.classify)).map _
  | findIndex text index language context =>
      exact ((answers_findNodes p text language context).bind fun nodes =>
        answers_classifyOption p nodes[index]?).map _
  | first text language context =>
      -- the expression is changed before it is evaluated, so `answers_findNodes` does not apply
      exact ((answers_expression text language context.isSome).bind fun xpath =>
        (answers_evaluate p _ context).bind fun nodes =>
          answers_classifyOption p nodes.head?).map _
  | has text language context =>
      exact ((answers_findNodes p text language context).bind fun nodes => .pure _).map _
  | count text language context =>
      exact ((answers_findNodes p text language context).bind fun nodes => .pure _).map _
  | isMatch node selector =>
      exact ((answers_findNodes p selector .css none).bind fun nodes => .pure _).map _
  | closest node selector =>
      exact ((answers_findNodes p selector .css none).bind fun matched =>
        answers_nearest p node matched).map _
  | classify node => exact (answers_classify p node).map _
  | findEach selectors context =>
      -- the failures are kept as answers, so that the row of them never fails
      have heach := Answers.mapM (fun selector =>
        (answers_findNodes (f := f) p selector .css context).attempt) selectors
      have hall : selectors.mapM (fun selector =>
          (.ok (nodesFor p f selector .css context) : Except Failure _)) =
            .ok (selectors.map fun selector => nodesFor p f selector .css context) :=
        List.mapM_pure
      rw [hall] at heach
      exact heach.map _
  | findKeyed pairs context =>
      exact (Answers.mapM (fun pair : String × String =>
        (answers_findNodes p pair.2 .css context).bind fun nodes => .pure (pair.1, nodes))
          pairs).map _

/-- One query. -/
lemma step_fst (s : State ν) (op : Op ν) :
    (step p s op).1 = outcome p s.session.cache.answer op :=
  (answers_perform p op ⟨{ s.session with log := [] }, []⟩ rfl).1

/-- No query changes what the cache tells. -/
lemma answer_step (s : State ν) (op : Op ν) :
    (step p s op).2.session.cache.answer = s.session.cache.answer :=
  (answers_perform p op ⟨{ s.session with log := [] }, []⟩ rfl).2

/-- Queries in a row are answered as they would be at first. -/
lemma replies_run (s : State ν) (ops : List (Op ν)) :
    (run p s ops).map Prod.fst = ops.map (outcome p s.session.cache.answer) := by
  induction ops generalizing s with
  | nil => rfl
  | cons op ops ih => rw [run, List.map_cons, List.map_cons, ih, answer_step, step_fst]

end Queries

end SelectorPath.Query
