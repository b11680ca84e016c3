/-
The caches of a host are kept apart.

Every request is for one cache, for none, or makes a new one. What is answered
depends on the cache that it is for and, where selectors are compiled at once, on the
schedule of the request; and no other cache is changed. So of any row of requests,
those for one cache are answered as if the others had not been made.

* `Call.target?`, `State.isFor`: the cache that a call or a request is for.
* `State.perform_cases`, `State.call_of_isFor`, `State.session?_call_of_not_isFor`:
  all that a request can do, and what it leaves alone.
* `State.answers_filter`: the requests for one cache, among others and by themselves.
* `State.call_compileParallel`, `State.call_cacheLoad`: what the two calls with a
  list for an argument answer. The schedule of the first shows in no answer to it.
* `State.caches_are_isolated`: the main statement.
-/
import SelectorPath.Host.Call
import SelectorPath.Proofs.Cache.Loading
import SelectorPath.Proofs.Cache.Workers

namespace SelectorPath.Host

namespace Term

variable {α : Type} (item? : Term → Except Fault α)

lemma tailItems_ofList (items : List Term) :
    tailItems item? (ofList items) = items.mapM item? := by
  induction items with
  | nil => rfl
  | cons item items ih =>
      rw [List.mapM_cons, ← ih]
      rfl

/-- A list of terms is read item by item, from left to right. -/
lemma items?_ofList (items : List Term) : (ofList items).items? item? = items.mapM item? := by
  rw [← tailItems_ofList]
  cases items <;> rfl

end Term

/-- The cache that a call is for, if it is for one that is there already. -/
def Call.target? : Call → Option (Option Nat)
  | .compile _ | .compileRelative _ | .compileParallel _ _ => some none
  | .cacheNew _ => none
  | .cacheCompile handle _ => some (some handle)
  | .cacheEntries target | .cacheLoad target _ | .cacheClear target | .cacheStats target =>
    some target

namespace State

/-- The cache behind a handle, or the one that all share. -/
def session? (s : State) : Option Nat → Option Session
  | none => some s.shared
  | some n => s.caches[n]?

/-- The state with another cache behind a handle, or for the one that all share. -/
def put (s : State) (target : Option Nat) (session : Session) : State :=
  match target with
  | none => { s with shared := session }
  | some n => { s with caches := s.caches.set n session }

/-- The request is for this cache. One with terms that are no arguments is for none. -/
def isFor (target : Option Nat) (r : Request) : Bool :=
  match Call.ofRequest r with
  | .ok call => call.target? == some target
  | .error _ => false

/-- The state after some requests. -/
def after (s : State) (requests : List Request) : State :=
  requests.foldl (fun s r => (s.call r).2) s

/-- The answers to those of some requests that are for one cache. -/
def answersFor (s : State) (target : Option Nat) (requests : List Request) :
    List (Except Fault Term) :=
  ((requests.zip (s.serve requests)).filter fun answered => isFor target answered.1).map Prod.snd

variable {s s' : State} {target target' : Option Nat} {session session' : Session}

lemma session?_put (h : s.session? target = some session) (session' : Session) :
    (s.put target session').session? target = some session' := by
  cases target with
  | none => rfl
  | some n =>
      obtain ⟨hn, -⟩ := List.getElem?_eq_some_iff.mp h
      exact List.getElem?_set_self hn

/-- Every other cache stays as it is. -/
lemma session?_put_of_ne (h : target ≠ target') (session : Session) :
    (s.put target session).session? target' = s.session? target' := by
  cases target with
  | none =>
      cases target' with
      | none => exact absurd rfl h
      | some n => rfl
  | some m =>
      cases target' with
      | none => rfl
      | some n => exact List.getElem?_set_ne fun heq => h (congrArg some heq)

/-- A new cache comes after those that are there. -/
lemma session?_newCache (h : s.session? target = some session) (ascii : Bool) :
    (s.newCache ascii).2.session? target = some session := by
  cases target with
  | none => exact h
  | some n =>
      obtain ⟨hn, -⟩ := List.getElem?_eq_some_iff.mp h
      exact (List.getElem?_append_left hn).trans h

/-! ### All that a call can do -/

lemma use_of_session? (h : s.session? target = some session) {α : Type}
    (action : Session.Action α) :
    s.use target action = .ok ((action.run session).1, s.put target (action.run session).2) := by
  cases target with
  | none =>
      obtain rfl := Option.some.inj h
      rfl
  | some n =>
      have hn : s.caches[n]? = some session := h
      simp only [use, hn, put]

/-- A handle that was never made is no argument. -/
lemma use_of_missing (h : s.session? target = none) {α : Type} (action : Session.Action α) :
    s.use target action = .error .badArgument := by
  cases target with
  | none => cases h
  | some n =>
      have hn : s.caches[n]? = none := h
      simp only [use, hn]

/-- A call makes a cache, or uses the one that it is for. -/
lemma perform_cases (call : Call) :
    (∃ ascii, call = .cacheNew ascii) ∨
      ∃ target action, call.target? = some target ∧
        ∀ s : State, s.perform call = s.use target action := by
  cases call with
  | cacheNew ascii => exact .inl ⟨ascii, rfl⟩
  | _ => exact .inr ⟨_, _, rfl, fun _ => rfl⟩

section Calls

variable {r : Request} {fault : Fault}

/-- Terms that are no arguments raise the same whatever the caches are, and change
nothing. -/
lemma call_of_error (h : Call.ofRequest r = .error fault) (s : State) :
    s.call r = (.error fault, s) := by
  rw [call, h]
  rfl

variable {decoded : Call}

lemma call_of_perform_ok (h : Call.ofRequest r = .ok decoded) {answer : Term}
    (hperform : s.perform decoded = .ok (answer, s')) : s.call r = (.ok answer, s') := by
  have hbind : (Call.ofRequest r >>= s.perform) = .ok (answer, s') := by
    rw [h]
    exact hperform
  rw [call, hbind]

lemma call_of_perform_error (h : Call.ofRequest r = .ok decoded)
    (hperform : s.perform decoded = .error fault) : s.call r = (.error fault, s) := by
  have hbind : (Call.ofRequest r >>= s.perform) = .error fault := by
    rw [h]
    exact hperform
  rw [call, hbind]

/-- What is answered, and what is left of the cache that a request is for, depends on
that cache only. -/
lemma call_of_isFor (h : isFor target r) :
    ∃ action : Session.Action Term, ∀ (s : State) session, s.session? target = some session →
      s.call r = (.ok (action.run session).1, s.put target (action.run session).2) := by
  rw [isFor] at h
  cases hcall : Call.ofRequest r with
  | error fault => simp [hcall] at h
  | ok decoded =>
      obtain ⟨ascii, rfl⟩ | ⟨target', action, htarget, haction⟩ := perform_cases decoded
      · simp [hcall, Call.target?] at h
      · obtain rfl : target' = target := by simpa [hcall, htarget] using h
        refine ⟨action, fun s session hsession => call_of_perform_ok hcall ?_⟩
        rw [haction, use_of_session? hsession]

/-- A request changes no cache that it is not for. -/
lemma session?_call_of_not_isFor (h : isFor target r = false)
    (hsession : s.session? target = some session) :
    (s.call r).2.session? target = some session := by
  rw [isFor] at h
  cases hcall : Call.ofRequest r with
  | error fault => rw [call_of_error hcall, hsession]
  | ok decoded =>
      obtain ⟨ascii, rfl⟩ | ⟨target', action, htarget, haction⟩ := perform_cases decoded
      · rw [call_of_perform_ok hcall rfl]
        exact session?_newCache hsession ascii
      · have hne : target' ≠ target := by simpa [hcall, htarget] using h
        -- the cache that it is for may be missing, and then it raises
        cases hother : s.session? target' with
        | none =>
            have hfault := (haction s).trans (use_of_missing hother action)
            rw [call_of_perform_error hcall hfault, hsession]
        | some other =>
            have hused := (haction s).trans (use_of_session? hother action)
            rw [call_of_perform_ok hcall hused, session?_put_of_ne hne, hsession]

end Calls

/-! ### Rows of requests -/

/-- The first request has an answer among those for the cache if it is for it. -/
lemma answersFor_cons (s : State) (target : Option Nat) (r : Request) (requests : List Request) :
    s.answersFor target (r :: requests) =
      if isFor target r then (s.call r).1 :: (s.call r).2.answersFor target requests
      else (s.call r).2.answersFor target requests := by
  rw [answersFor, serve, List.zip_cons_cons, List.filter_cons]
  split_ifs <;> rfl

/-- Two hosts with the same cache in one place answer the requests for it alike, if
the one is sent all of some requests and the other only these. And the cache stays
the same. -/
lemma answers_filter (h : s.session? target = some session)
    (h' : s'.session? target = some session) (requests : List Request) :
    s.answersFor target requests = s'.serve (requests.filter (isFor target)) ∧
      (s.after requests).session? target =
        (s'.after (requests.filter (isFor target))).session? target := by
  induction requests generalizing s s' session with
  | nil => exact ⟨rfl, h.trans h'.symm⟩
  | cons r requests ih =>
      rw [answersFor_cons, List.filter_cons]
      cases hfor : isFor target r with
      | true =>
          -- both make the call, and it finds the same cache
          obtain ⟨action, haction⟩ := call_of_isFor hfor
          have hs := haction s session h
          have hs' := haction s' session h'
          obtain ⟨hanswers, hafter⟩ := ih (session?_put h (action.run session).2)
            (session?_put h' (action.run session).2)
          simp only [if_true, serve, after, List.foldl_cons, hs, hs', List.cons.injEq, true_and]
          exact ⟨hanswers, hafter⟩
      | false => exact ih (session?_call_of_not_isFor hfor h) h'

/-! ### Single calls -/

/-- A selector is answered with what the cache tells of its clauses. -/
lemma fst_compiled (form : Compiled → String) (selector : String) (x : Session) :
    ((compiled form selector).run x).1 =
      Term.ofResult ((Selector.resolve x.cache.answer selector).map form) := by
  rw [← (Session.run_compile selector x).1]
  rfl

/-- What the shared cache answers to a selector. -/
lemma call_compile {text : Term} {selector : String} (h : text.text? = .ok selector)
    (schedule : List Nat) (s : State) :
    (s.call ⟨.compile, [text], schedule⟩).1 = .ok
      (Term.ofResult ((Selector.resolve s.shared.cache.answer selector).map Compiled.xpath)) := by
  have hcall : Call.ofRequest ⟨.compile, [text], schedule⟩ = .ok (.compile selector) := by
    rw [Call.ofRequest, h]
    rfl
  rw [call_of_perform_ok hcall rfl, ← fst_compiled Compiled.xpath selector s.shared]

/-- Several selectors are answered as the cache answers to each at the start, on every
schedule. -/
lemma call_compileParallel {texts : List Term} {selectors : List String}
    (h : texts.mapM Term.text? = .ok selectors) (schedule : List Nat) (s : State) :
    (s.call ⟨.compileParallel, [Term.ofList texts], schedule⟩).1 =
      .ok (Term.ofList (selectors.map fun selector =>
        Term.ofResult ((Selector.resolve s.shared.cache.answer selector).map Compiled.xpath))) := by
  have hcall : Call.ofRequest ⟨.compileParallel, [Term.ofList texts], schedule⟩ =
      .ok (.compileParallel selectors schedule) := by
    rw [Call.ofRequest, Term.items?_ofList, h]
    rfl
  have hresults : ((Session.compileAll schedule selectors).run s.shared).1 =
      selectors.map (Selector.resolve s.shared.cache.answer) :=
    (Session.compileAll_agrees schedule s.shared selectors).1.trans
      (Session.run_mapM_compile selectors s.shared).1
  have hanswers : ((Session.compileAll schedule selectors).run s.shared).1.map
      (fun result => Term.ofResult (result.map Compiled.xpath)) = selectors.map fun selector =>
        Term.ofResult ((Selector.resolve s.shared.cache.answer selector).map Compiled.xpath) := by
    rw [hresults, List.map_map]
    rfl
  rw [call_of_perform_ok hcall rfl, ← hanswers]
  rfl

/-- A cache that is loaded tells how many keys there are. -/
lemma call_cacheLoad {handle : Term} (htarget : handle.target? = .ok target)
    (hsession : s.session? target = some session) {items : List Term}
    {pairs : List (String × String)} (hpairs : items.mapM Term.pair? = .ok pairs)
    (schedule : List Nat) :
    (s.call ⟨.cacheLoad, [handle, Term.ofList items], schedule⟩).1 =
      .ok (.integer (pairs.map Prod.fst).dedup.length) := by
  have hcall : Call.ofRequest ⟨.cacheLoad, [handle, Term.ofList items], schedule⟩ =
      .ok (.cacheLoad target pairs) := by
    rw [Call.ofRequest, Term.items?_ofList, htarget, hpairs]
    rfl
  have hreplaced : ((Session.replace pairs).run session).2.cache = session.cache.replace pairs :=
    (Session.cache_writing (fun c => ((), c.replace pairs)) _).2
  have hsize := (Session.cache_reading Cache.size ((Session.replace pairs).run session).2).1
  rw [hreplaced, Cache.size_replace] at hsize
  rw [call_of_perform_ok hcall (use_of_session? hsession _), ← hsize]
  rfl

/-- A new cache gets a handle that no cache had, and starts empty. -/
lemma call_cacheNew {flag : Term} {ascii : Bool} (h : flag.flag? = .ok ascii)
    (schedule : List Nat) (s : State) :
    s.session? (some s.caches.length) = none ∧
      (s.call ⟨.cacheNew, [flag], schedule⟩).1 = .ok (.handle s.caches.length) ∧
      (s.call ⟨.cacheNew, [flag], schedule⟩).2.session? (some s.caches.length) =
        some (Session.fresh (if ascii then .ascii else .lowerCase)) := by
  have hcall : Call.ofRequest ⟨.cacheNew, [flag], schedule⟩ = .ok (.cacheNew ascii) := by
    rw [Call.ofRequest, h]
    rfl
  rw [call_of_perform_ok hcall rfl]
  exact ⟨List.getElem?_eq_none (Nat.le_refl _), rfl, List.getElem?_concat_length⟩

/-! ### Isolation -/

/-- **Caches are isolated.** Of any row of requests those for one cache, behind a
handle or shared, are answered as if only they had been made, on any host with this
cache in this place; and they leave it the same. This holds of every schedule that a
request has for its selectors, so that the counters are told alike too. No request
changes a cache that it is not for, and terms that are no arguments change nothing. A
new cache starts empty, as does the one that all share, under a handle that was not
given before. Several selectors at once are answered in order, each as it would be by
itself at the start of the call, on every schedule. Loading a cache gives the number
of different keys. -/
theorem caches_are_isolated (s : State) :
    (∀ (target : Option Nat) (session : Session), s.session? target = some session →
      (∀ s' : State, s'.session? target = some session → ∀ requests : List Request,
        s.answersFor target requests = s'.serve (requests.filter (isFor target)) ∧
          (s.after requests).session? target =
            (s'.after (requests.filter (isFor target))).session? target) ∧
      ∀ r, isFor target r = false → (s.call r).2.session? target = some session) ∧
    (∀ r fault, Call.ofRequest r = .error fault → s.call r = (.error fault, s)) ∧
    initial.session? none = some (Session.fresh .lowerCase) ∧
    (∀ (flag : Term) (ascii : Bool) schedule, flag.flag? = .ok ascii →
      s.session? (some s.caches.length) = none ∧
        (s.call ⟨.cacheNew, [flag], schedule⟩).1 = .ok (.handle s.caches.length) ∧
        (s.call ⟨.cacheNew, [flag], schedule⟩).2.session? (some s.caches.length) =
          some (Session.fresh (if ascii then .ascii else .lowerCase))) ∧
    (∀ (texts : List Term) (selectors : List String), texts.mapM Term.text? = .ok selectors →
      ∃ answers,
        (∀ schedule, (s.call ⟨.compileParallel, [Term.ofList texts], schedule⟩).1 =
          .ok (Term.ofList answers)) ∧
        List.Forall₂ (fun text answer =>
          ∀ schedule, (s.call ⟨.compile, [text], schedule⟩).1 = .ok answer) texts answers) ∧
    ∀ (handle : Term) (target : Option Nat) (session : Session), handle.target? = .ok target →
      s.session? target = some session → ∀ (items : List Term) (pairs : List (String × String)),
        items.mapM Term.pair? = .ok pairs → ∀ schedule,
          (s.call ⟨.cacheLoad, [handle, Term.ofList items], schedule⟩).1 =
            .ok (.integer (pairs.map Prod.fst).dedup.length) := by
  refine ⟨fun target session hsession => ⟨fun s' hsession' => answers_filter hsession hsession',
    fun r hfor => session?_call_of_not_isFor hfor hsession⟩,
    fun r fault herror => call_of_error herror s, rfl,
    fun flag ascii schedule hflag => call_cacheNew hflag schedule s, ?_,
    fun handle target session htarget hsession items pairs hpairs =>
      call_cacheLoad htarget hsession hpairs⟩
  intro texts selectors htexts
  -- the answers are given for no schedule in particular
  refine ⟨_, fun schedule => call_compileParallel htexts schedule s, ?_⟩
  rw [List.forall₂_map_right_iff]
  exact (Error.mapM_eq_ok.mp htexts).imp fun text selector htext schedule =>
    call_compile htext schedule s

/-- Requests for a cache behind a handle and for the shared one, in a row with others:
for caches that are made, emptied and loaded meanwhile, and for one that is not there.
Two workers look the same clause up before either of them publishes it, so that both
miss it, which the figures of the shared cache show afterwards. -/
theorem caches_are_isolated_shuffled :
    let other : Session := ⟨⟨.lowerCase, Cache.entriesOf [("p", "//mine")], 3, 1⟩, true, []⟩
    let s : State := ⟨other, [Session.fresh .ascii, other]⟩
    let s' : State := ⟨other, [Session.fresh .ascii]⟩
    let mine : Request := ⟨.cacheCompile, [.handle 0, .ofText "p:contains(A), p"], []⟩
    let mineTold : Request := ⟨.cacheStats, [.handle 0], []⟩
    let texts : List Term := [.ofText "q", .ofText "", .ofText "q"]
    let ours : Request := ⟨.compileParallel, [.ofList texts], [0, 2, 7, 2, 0]⟩
    let oursTold : Request := ⟨.cacheStats, [.atom "nil"], []⟩
    let load : List Term :=
      [.tuple [.ofText "p", .ofText "//a"], .tuple [.ofText "q", .ofText "//b"],
        .tuple [.ofText "p", .ofText "//c"]]
    let requests : List Request := [ours, mine, ⟨.cacheNew, [.atom "true"], []⟩,
      ⟨.cacheClear, [.handle 1], []⟩, ⟨.cacheLoad, [.handle 1, .ofList load], []⟩, mine,
      ⟨.cacheCompile, [.handle 2, .ofText "p"], []⟩, ⟨.cacheClear, [.atom "p"], []⟩, mineTold,
      oursTold]
    s.answersFor (some 0) requests = s'.serve [mine, mine, mineTold] ∧
    s.answersFor none requests = s'.serve [ours, oursTold] ∧
    (s.call ⟨.cacheClear, [.atom "p"], []⟩).1 = .error .badArgument ∧
    (s.call ⟨.cacheNew, [.atom "true"], []⟩).1 = .ok (.handle 2) ∧
    (∃ answers, (s.call ours).1 = .ok (Term.ofList answers) ∧
      List.Forall₂ (fun text answer =>
        ∀ schedule, (s.call ⟨.compile, [text], schedule⟩).1 = .ok answer) texts answers) ∧
    (s.call ⟨.cacheLoad, [.handle 1, Term.ofList load], []⟩).1 = .ok (.integer 2) := by
  intro other s s' mine mineTold texts ours oursTold load requests
  obtain ⟨hcalls, hfault, -, hnew, hparallel, hload⟩ := caches_are_isolated s
  refine ⟨?_, ?_, ?_, (hnew (.atom "true") true [] rfl).2.1, ?_, ?_⟩
  · -- which requests stay is computed, but not what they are answered
    have hfor : requests.map (isFor (some 0)) =
        [false, true, false, false, false, true, false, false, true, false] := by decide +kernel
    simp only [requests, List.map_cons, List.map_nil, List.cons.injEq, and_true] at hfor
    rw [((hcalls (some 0) (Session.fresh .ascii) rfl).1 s' rfl requests).1]
    simp [requests, hfor]
  · have hfor : requests.map (isFor none) =
        [true, false, false, false, false, false, false, false, false, true] := by decide +kernel
    simp only [requests, List.map_cons, List.map_nil, List.cons.injEq, and_true] at hfor
    rw [((hcalls none other rfl).1 s' rfl requests).1]
    simp [requests, hfor]
  · rw [hfault ⟨.cacheClear, [.atom "p"], []⟩ .badArgument rfl]
  · obtain ⟨answers, hanswer, hall⟩ := hparallel texts ["q", "", "q"] (by decide +kernel)
    exact ⟨answers, hanswer _, hall⟩
  · have hpairs : load.mapM Term.pair? = .ok [("p", "//a"), ("q", "//b"), ("p", "//c")] := by
      decide +kernel
    rw [hload (.handle 1) (some 1) other rfl rfl load _ hpairs]
    rfl

end State

end SelectorPath.Host
