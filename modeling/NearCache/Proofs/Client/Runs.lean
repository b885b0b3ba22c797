import NearCache.Proofs.Client.Background
import NearCache.Proofs.Client.Bindings
import NearCache.Proofs.Client.Traffic

/-!
Runs of a client's traffic. Every caller follows a plan, the books stay in order under every call,
and a cache is in the mode of the last answer that its requests for a listener got.
-/

namespace NearCache

variable {b b' : Books} {plans plans' : Nat → Plan} {i : Nat}

/-- Directory, caches in hand, workers, registrations and subscriptions are in order. -/
structure Orderly (b : Books) (plans : Nat → Plan) : Prop where
  filed : Filed b
  owned : Owned b plans
  staffed : Staffed b plans
  winding : Winding b plans
  ledger : Ledger b plans
  heard : Heard b plans

namespace Orderly

theorem turn (h : Orderly b plans) (hUndisturbed : Undisturbed b plans)
    (hTurn : Turn b (plans i) b' (plans' i)) (hOthers : ∀ j, j ≠ i → plans' j = plans j) :
    Orderly b' plans' where
  filed := h.filed.turn hTurn
  owned := h.owned.turn h.filed hTurn hOthers
  staffed := h.staffed.turn hTurn hOthers
  winding := h.winding.turn hUndisturbed hTurn hOthers
  ledger := h.ledger.turn h.filed hTurn hOthers
  heard := h.heard.turn h.filed h.owned h.winding hUndisturbed hTurn hOthers

theorem begin (h : Orderly b plans) (operation : Operation) (hOver : plans i = .idle)
    (hBegun : plans' i = operation.plan) (hOthers : ∀ j, j ≠ i → plans' j = plans j) :
    Orderly b plans' where
  filed := h.filed
  owned := h.owned.begin operation hOver hBegun hOthers
  staffed := h.staffed.begin operation hOver hBegun hOthers
  winding := h.winding.begin operation hOver hBegun hOthers
  ledger := h.ledger.begin operation hOver hBegun hOthers
  heard := h.heard.begin operation hOver hBegun hOthers

theorem retire (h : Orderly b plans) {w : WorkerId} (hTold : b.worker w = some true) :
    Orderly (b.retire w) plans where
  filed := { h.filed with }
  owned := { h.owned with }
  staffed := h.staffed.retire hTold
  winding := { h.winding with }
  ledger := { h.ledger with }
  heard := { h.heard with }

/-- Order does not depend on how the cluster treats requests. -/
theorem withFaults (h : Orderly b plans) (faults : ClusterFaults) :
    Orderly { b with faults := faults } plans where
  filed := { h.filed with }
  owned := { h.owned with }
  staffed := { h.staffed with }
  winding := { h.winding with }
  ledger := { h.ledger with }
  heard := { h.heard with }

end Orderly

/-- A client begins in order, on a cluster that has no listeners yet. -/
theorem orderly_create (configs : ConfigCatalog) (coherence : CoherenceConfig) {cluster : Cluster}
    (hRegistrations : cluster.registrations = ∅) (hBindings : cluster.bindings = ∅) :
    Orderly (Client.create configs coherence cluster).books fun _ => .idle := by
  have hFace : ∀ id, (Client.create configs coherence cluster).books.face id = none := fun id => by
    simp [Client.books, Client.create]
  have hEntry : ∀ name, (Client.create configs coherence cluster).books.entry name = none :=
    fun name => by simp [Client.books, Client.create]
  have hRegistered : ∀ r, (Client.create configs coherence cluster).books.registered r = none :=
    fun r => by simp [Client.books, Client.create, hRegistrations]
  have hBound : ∀ r, (Client.create configs coherence cluster).books.bound r = none :=
    fun r => by simp [Client.books, Client.create, hBindings]
  have hWorker : ∀ w, (Client.create configs coherence cluster).books.worker w = none :=
    fun w => by simp [Client.books, Client.create]
  have hRunning : (Client.create configs coherence cluster).books.running = none := rfl
  have hClosed : (Client.create configs coherence cluster).books.closed = false := rfl
  generalize (Client.create configs coherence cluster).books = b at *
  have hLists : ∀ id, ¬b.Lists id := by
    rintro id ⟨name, h⟩
    cases (hEntry name).symm.trans h
  have hUnknown : ∀ id, b.title id = none ∧ b.stage id = none ∧ b.held id = none ∧
      b.lapsed id = false := fun id => by
    simp [Books.title, Books.stage, Books.held, Books.lapsed, hFace id]
  have hIdle : Plan.idle.phase.removes = none ∧ Plan.idle.phase.vacates = none ∧
      Plan.idle.phase.seeks = none ∧ Plan.idle.phase.guards = none :=
    ⟨rfl, rfl, rfl, rfl⟩
  constructor <;> constructor <;>
    grind [Plan.role_idle, Plan.enters_idle, Plan.not_stops_idle, Plan.not_awaits_idle]

/-- Every caller follows a plan that fits what it asked for, and nobody else has one. -/
structure Planned (closed : Bool) (callers : List Caller) (plans : Nat → Plan) : Prop where
  todo : ∀ i caller, callers[i]? = some caller → caller.activity.todo = (plans i).actions
  beyond : ∀ i, callers[i]? = none → plans i = .idle
  renews : ∀ i caller, callers[i]? = some caller → (plans i).Renews →
    caller.operation = .resubscribeAll
  plain : ∀ i caller, callers[i]? = some caller → caller.operation = .resubscribeAll →
    (plans i).Plain
  closes : ∀ i caller, callers[i]? = some caller → caller.operation = .shutdownAll →
    closed = true ∨ (plans i).phase = .closing

theorem Operation.eq_resubscribeAll_of_renews {operation : Operation}
    (h : operation.plan.Renews) : operation = .resubscribeAll := by
  cases operation with
  | resubscribeAll => rfl
  | _ => simp [Operation.plan, Plan.Renews, Phase.renews, Plan.Intends] at h

theorem Operation.plain_resubscribeAll : Operation.resubscribeAll.plan.Plain :=
  ⟨.inr rfl, nofun⟩

/-- A plan that leaves nothing to do is the idle one. -/
theorem Plan.eq_idle_of_actions {p : Plan} (h : p.actions = []) : p = .idle := by
  obtain ⟨phase, tail⟩ := p
  obtain ⟨hPhase, hTail⟩ := List.append_eq_nil_iff.mp h
  rw [List.map_eq_nil_iff] at hTail
  subst hTail
  cases phase <;> cases hPhase
  rfl

namespace Planned

variable {closed closed' : Bool} {callers : List Caller} {caller : Caller} {t : Traffic}

theorem idle_of_isOver (h : Planned closed callers plans) (hCaller : callers[i]? = some caller)
    (hOver : caller.activity.isOver) : plans i = .idle := by
  refine Plan.eq_idle_of_actions ?_
  rw [← h.todo i caller hCaller]
  exact List.isEmpty_iff.mp hOver

theorem eq_idle (h : Planned closed t.callers plans) (hQuiet : t.Quiet) (i : Nat) :
    plans i = .idle := by
  cases hCaller : t.callers[i]? with
  | none => exact h.beyond i hCaller
  | some caller => exact h.idle_of_isOver hCaller (hQuiet caller (List.mem_of_getElem? hCaller))

theorem not_renews (h : Planned closed t.callers plans) (hRenewed : t.Renewed) (i : Nat) :
    ¬(plans i).Renews := by
  intro hRenews
  have hOver : plans i = .idle := by
    cases hCaller : t.callers[i]? with
    | none => exact h.beyond i hCaller
    | some caller =>
        have hOperation := h.renews i caller hCaller hRenews
        exact h.idle_of_isOver hCaller (hRenewed caller (List.mem_of_getElem? hCaller) hOperation)
  exact Plan.not_renews_idle (hOver ▸ hRenews)

/-- A caller is new, or goes on with a plan of its own, and the others stay with theirs. -/
theorem update (h : Planned closed callers plans) {callers' : List Caller} (caller : Caller)
    {p : Plan}
    (hCallers : ∀ j, callers'[j]? = if j = i then some caller else callers[j]?)
    (hClosed : closed = true → closed' = true) (hTodo : caller.activity.todo = p.actions)
    (hRenews : p.Renews → caller.operation = .resubscribeAll)
    (hPlain : caller.operation = .resubscribeAll → p.Plain)
    (hCloses : caller.operation = .shutdownAll → closed' = true ∨ p.phase = .closing) :
    Planned closed' callers' (Function.update plans i p) := by
  constructor
  · intro j other hOther
    rw [hCallers] at hOther
    rw [Function.update_apply]
    split_ifs at hOther ⊢ with hSame
    · cases hOther
      exact hTodo
    · exact h.todo j other hOther
  · intro j hOther
    rw [hCallers] at hOther
    rw [Function.update_apply]
    split_ifs at hOther ⊢ with hSame
    exact h.beyond j hOther
  · intro j other hOther hRenews'
    rw [hCallers] at hOther
    rw [Function.update_apply] at hRenews'
    split_ifs at hOther hRenews' with hSame
    · cases hOther
      exact hRenews hRenews'
    · exact h.renews j other hOther hRenews'
  · intro j other hOther hOperation
    rw [hCallers] at hOther
    rw [Function.update_apply]
    split_ifs at hOther ⊢ with hSame
    · cases hOther
      exact hPlain hOperation
    · exact h.plain j other hOther hOperation
  · intro j other hOther hOperation
    rw [hCallers] at hOther
    rw [Function.update_apply]
    split_ifs at hOther ⊢ with hSame
    · cases hOther
      exact hCloses hOperation
    · exact (h.closes j other hOther hOperation).imp_left hClosed

theorem begin (h : Planned closed t.callers plans) (operation : Operation) :
    Planned closed (t.begin operation).callers
      (Function.update plans t.callers.length operation.plan) := by
  apply h.update ⟨operation, ⟨t.callers.length, operation.todo, .done⟩⟩
  case hCallers =>
    intro j
    by_cases hSame : j = t.callers.length
    · rw [if_pos hSame, hSame]
      exact List.getElem?_concat_length
    · rw [if_neg hSame]
      rcases Nat.lt_or_gt_of_ne hSame with hLess | hBeyond
      · exact List.getElem?_append_left hLess
      · rw [List.getElem?_eq_none (Nat.le_of_lt hBeyond), List.getElem?_eq_none]
        simpa [Traffic.begin] using Nat.succ_le_of_lt hBeyond
  case hClosed => exact id
  case hTodo => exact operation.actions_plan.symm
  case hRenews => exact operation.eq_resubscribeAll_of_renews
  case hPlain =>
    rintro rfl
    exact Operation.plain_resubscribeAll
  case hCloses =>
    rintro rfl
    exact .inr rfl

theorem set (h : Planned closed callers plans) (hCaller : callers[i]? = some caller)
    {activity : Activity} {p : Plan} (hTodo : activity.todo = p.actions)
    (hRenews : p.Renews → (plans i).Renews) (hPlain : (plans i).Plain → p.Plain)
    (hClosed : closed = true → closed' = true)
    (hCloses : (plans i).phase = .closing → closed' = true ∨ p.phase = .closing) :
    Planned closed' (callers.set i { caller with activity := activity })
      (Function.update plans i p) := by
  obtain ⟨hLess, -⟩ := List.getElem?_eq_some_iff.mp hCaller
  apply h.update { caller with activity := activity }
  case hCallers =>
    intro j
    by_cases hSame : j = i
    · rw [if_pos hSame, hSame, List.getElem?_set_self hLess]
    · rw [if_neg hSame, List.getElem?_set_ne (Ne.symm hSame)]
  case hClosed => exact hClosed
  case hTodo => exact hTodo
  case hRenews => exact fun hNow => h.renews i caller hCaller (hRenews hNow)
  case hPlain => exact fun hOperation => hPlain (h.plain i caller hCaller hOperation)
  case hCloses =>
    intro hOperation
    rcases h.closes i caller hCaller hOperation with hBefore | hPhase
    · exact .inl (hClosed hBefore)
    · exact hCloses hPhase

end Planned

/-- The mode of a cache of this name after the cluster has answered its request for a listener. -/
def Cluster.outcome (c : Cluster) (name : String) (shape : EventShape) : CoherenceMode :=
  match (c.answer (.addListener name shape true)).2 with
  | .ok (.listenerAdded _) => shape.mode
  | _ => .reconciledOnly

/-- The mode in which a step leaves a cache when it brings the answer to its request for a
listener. -/
def Traffic.answer? (id : CacheId) : Traffic × Traffic.Call → Option CoherenceMode
  | (t, .advance i) =>
    match (t.callers[i]?).bind fun caller => caller.activity.todo.head? with
    | some (.awaitListener other shape due _) =>
      if other = id ∧ due ≤ t.client.now then
        (t.client.caches[id]?).map fun cache => t.client.cluster.outcome cache.name shape
      else none
    | _ => none
  | _ => none

/-- This was the last answer to a request for a cache's listener. -/
def Traffic.Answered (id : CacheId) (mode : CoherenceMode) : List (Traffic × Traffic.Call) → Prop :=
  History.Since (fun _ step => answer? id step = some mode) fun step => (answer? id step).isSome

theorem Turn.closed_of_closing {p p' : Plan} (h : Turn b p b' p') (hPhase : p.phase = .closing) :
    b'.closed = true := by
  cases h <;> cases hPhase
  rfl

theorem Turn.faults {p p' : Plan} (h : Turn b p b' p') : b'.faults = b.faults := by
  cases h <;> rfl

section Answers

variable {t : Traffic} {caller : Caller} {id : CacheId} {shape : EventShape} {p : Plan}

theorem Cluster.outcome_eq {c : Cluster} (hFair : c.faults.Fair) (name : String)
    (shape : EventShape) :
    c.outcome name shape = if c.faults.refuseListeners then .reconciledOnly else shape.mode := by
  unfold outcome
  cases hRefused : c.faults.refuseListeners with
  | true =>
      obtain ⟨e, hAnswer⟩ := answer_refused name shape true hRefused
      rw [hAnswer]
      rfl
  | false =>
      rw [answer_granted name shape true hRefused hFair.2.1]
      rfl

theorem awaits_of_head {due : Nat} {followUp : FollowUp}
    (h : p.actions.head? = some (.awaitListener id shape due followUp)) :
    p.phase.awaits = some (id, shape) := by
  obtain ⟨phase, tail⟩ := p
  cases phase with
  | free =>
      cases tail with
      | nil => cases h
      | cons chore tail => cases chore <;> cases h
  | awaiting => cases h; rfl
  | _ => cases h

theorem Phase.vacates_of_awaits {phase : Phase} (h : phase.awaits = some (id, shape)) :
    phase.vacates = some id := by
  cases phase <;> cases h
  rfl

theorem head_of_awaits (h : p.phase.awaits = some (id, shape)) :
    ∃ due followUp, p.actions.head? = some (.awaitListener id shape due followUp) := by
  obtain ⟨phase, tail⟩ := p
  cases phase <;> cases h
  exact ⟨_, _, rfl⟩

theorem answer?_of_awaits (hCaller : t.callers[i]? = some caller)
    (hTodo : caller.activity.todo = p.actions) (hAwaits : p.phase.awaits = some (id, shape))
    (hReady : t.client.activityIsReady caller.activity) (hFair : t.client.cluster.faults.Fair)
    (hKnown : t.client.books.stage id ≠ none) :
    Traffic.answer? id (t, .advance i) = some (t.client.books.answer shape) := by
  obtain ⟨due, followUp, hHead⟩ := head_of_awaits hAwaits
  rw [← hTodo] at hHead
  obtain ⟨cache, hCache⟩ : ∃ cache, t.client.caches[id]? = some cache := by
    rw [← Option.ne_none_iff_exists']
    exact fun hNone => hKnown (by simp [Books.stage, Client.books, hNone])
  have hDue : due ≤ t.client.now := by
    rw [Client.activityIsReady, hHead] at hReady
    simpa [Client.isReady] using hReady
  simp only [Traffic.answer?, hCaller, Option.bind_some, hHead, hDue, and_self, if_true, hCache,
    Option.map_some, Cluster.outcome_eq hFair]
  rfl

theorem answer?_of_not_awaits (hCaller : t.callers[i]? = some caller)
    (hTodo : caller.activity.todo = p.actions)
    (hAwaits : ∀ shape, p.phase.awaits ≠ some (id, shape)) :
    Traffic.answer? id (t, .advance i) = none := by
  simp only [Traffic.answer?, hCaller, Option.bind_some]
  split
  next other shape due followUp hHead =>
    rw [hTodo] at hHead
    refine if_neg fun h => hAwaits shape ?_
    rw [← h.1]
    exact awaits_of_head hHead
  · rfl

theorem answer?_of_waiting (hCaller : t.callers[i]? = some caller)
    (hWait : ¬t.client.activityIsReady caller.activity) :
    Traffic.answer? id (t, .advance i) = none := by
  simp only [Traffic.answer?, hCaller, Option.bind_some]
  split
  next other shape due followUp hHead =>
    refine if_neg fun h => hWait ?_
    rw [Client.activityIsReady, hHead]
    simpa [Client.isReady] using h.2
  · rfl

end Answers

/-- What a list of results names once comes from one place. -/
theorem eq_of_nodup_filterMap {α β : Type} {f : α → Option β} {l : List α} {i j : Nat} {x y : α}
    {v : β} (hNodup : (l.filterMap f).Nodup) (hx : l[i]? = some x) (hy : l[j]? = some y)
    (hfx : f x = some v) (hfy : f y = some v) : i = j := by
  have hApart := List.pairwise_iff_getElem.mp (List.pairwise_filterMap.mp hNodup)
  obtain ⟨hi, rfl⟩ := List.getElem?_eq_some_iff.mp hx
  obtain ⟨hj, rfl⟩ := List.getElem?_eq_some_iff.mp hy
  rcases Nat.lt_trichotomy i j with hLess | hSame | hLess
  · exact absurd rfl (hApart i j hi hj hLess v hfx v hfy)
  · exact hSame
  · exact absurd rfl (hApart j i hj hi hLess v hfy v hfx)

section Undisturbed

variable {p : Plan} {id : CacheId} {caller : Caller} {t : Traffic}

theorem Plan.renews_of_role (hRole : p.role = some (.renewal, id)) : p.Renews := by
  obtain ⟨phase, tail⟩ := p
  cases phase
  case requesting errand | awaiting errand =>
    cases errand <;> cases hRole
    exact .inl rfl
  case detaching sequel | removing sequel =>
    cases sequel <;> cases hRole
    exact .inl rfl
  case seeding errand | collecting errand | starting errand => cases errand <;> cases hRole
  all_goals cases hRole

theorem renewing?_of_role (hTodo : caller.activity.todo = p.actions)
    (hOperation : caller.operation = .resubscribeAll) (hRole : p.role = some (.renewal, id)) :
    caller.renewing? = some id := by
  rw [Caller.renewing?, if_pos hOperation, hTodo]
  obtain ⟨phase, tail⟩ := p
  cases phase
  case requesting errand | awaiting errand =>
    cases errand <;> cases hRole
    rfl
  case detaching sequel | removing sequel =>
    cases sequel <;> cases hRole
    rfl
  case seeding errand | collecting errand | starting errand => cases errand <;> cases hRole
  all_goals cases hRole

namespace Planned

variable {closed : Bool} {callers : List Caller}

theorem caller_of_busy (h : Planned closed callers plans) (hBusy : plans i ≠ .idle) :
    ∃ caller, callers[i]? = some caller :=
  Option.ne_none_iff_exists'.mp fun hNone => hBusy (h.beyond i hNone)

/-- A plan with a cache in hand for renewal is that of a caller who renews the cache. -/
theorem caller_of_role (h : Planned closed callers plans)
    (hRole : (plans i).role = some (.renewal, id)) :
    ∃ caller, callers[i]? = some caller ∧ caller.renewing? = some id := by
  have hBusy : plans i ≠ .idle := by
    intro hIdle
    rw [hIdle] at hRole
    cases hRole
  obtain ⟨caller, hCaller⟩ := h.caller_of_busy hBusy
  have hOperation := h.renews i caller hCaller (Plan.renews_of_role hRole)
  exact ⟨caller, hCaller, renewing?_of_role (h.todo i caller hCaller) hOperation hRole⟩

theorem mem_renewing (h : Planned closed t.callers plans)
    (hRole : (plans i).role = some (.renewal, id)) : id ∈ t.renewing := by
  obtain ⟨caller, hCaller, hRenewing⟩ := h.caller_of_role hRole
  exact List.mem_filterMap.mpr ⟨caller, List.mem_of_getElem? hCaller, hRenewing⟩

theorem restarts (h : Planned closed callers plans) {seeds : Bool}
    (hStarting : (plans i).phase = .starting id (.renewal seeds)) :
    ∃ caller ∈ callers, caller.Restarts := by
  have hBusy : plans i ≠ .idle := by
    intro hIdle
    rw [hIdle] at hStarting
    cases hStarting
  obtain ⟨caller, hCaller⟩ := h.caller_of_busy hBusy
  have hRenews : (plans i).Renews := .inl (by rw [hStarting]; rfl)
  refine ⟨caller, List.mem_of_getElem? hCaller, h.renews i caller hCaller hRenews, ?_⟩
  rw [h.todo i caller hCaller, Plan.actions, hStarting]
  rfl

/-- Renewals that are apart leave the others undisturbed. -/
theorem undisturbed (h : Planned closed t.callers plans) (hApart : t.RenewsApart) :
    Undisturbed t.client.books plans where
  listed i id hRole := Client.mem_registered.mp (hApart.listed id (h.mem_renewing hRole))
  finished i id hRole := by
    have hFinished := hApart.finished id (h.mem_renewing hRole)
    rwa [Books.stage, Client.books, Option.map_map]
  once i j id hRole hRole' := by
    obtain ⟨caller, hCaller, hRenewing⟩ := h.caller_of_role hRole
    obtain ⟨caller', hCaller', hRenewing'⟩ := h.caller_of_role hRole'
    exact eq_of_nodup_filterMap hApart.once hCaller hCaller' hRenewing hRenewing'
  staffed hClosed i id seeds hStarting := by
    obtain ⟨other, hm⟩ := List.exists_mem_of_ne_nil _
      (hApart.staffed hClosed (h.restarts hStarting))
    exact ⟨other, Client.mem_registered.mp hm⟩

end Planned

end Undisturbed

section Working

variable (t : Traffic) (w : WorkerId)

theorem Traffic.callers_work : (t.perform (.work w)).callers = t.callers := by
  simp only [perform]
  split <;> rfl

/-- A worker that goes on leaves the books as they are, or was told to stop and has stopped. -/
theorem Traffic.books_work :
    (t.perform (.work w)).client.books = t.client.books ∨
      (t.client.books.worker w = some true ∧
        (t.perform (.work w)).client.books = t.client.books.retire w) := by
  simp only [perform]
  split
  · exact t.client.books_stepWorker
  · exact .inl rfl

end Working

/-- What a call does to the plans of the callers. -/
inductive Course (t : Traffic) (plans : Nat → Plan) : Traffic.Call → (Nat → Plan) → Prop
  | begin {operation : Operation} :
      Course t plans (.begin operation) (Function.update plans t.callers.length operation.plan)
  | turn {i : Nat} {p : Plan}
      (hTurn : Turn t.client.books (plans i) (t.perform (.advance i)).client.books p) :
      Course t plans (.advance i) (Function.update plans i p)
  | stay {call : Traffic.Call}
      (hEntry : (t.perform call).client.books.entry = t.client.books.entry) :
      Course t plans call plans

/-- What holds of traffic, given all that went before. -/
structure Upheld (t : Traffic) (history : List (Traffic × Traffic.Call)) (plans : Nat → Plan) :
    Prop where
  planned : Planned t.client.closed t.callers plans
  orderly : Orderly t.client.books plans
  fair : t.client.cluster.faults.Fair
  answered : ∀ id, Settled t.client.books plans id →
    Traffic.Answered id (t.client.books.mode id) history

namespace Upheld

variable {t t' : Traffic} {history : List (Traffic × Traffic.Call)} {step : Traffic × Traffic.Call}

/-- A step without an answer for any cache. -/
theorem keep (h : Upheld t history plans) (hPlanned : Planned t'.client.closed t'.callers plans')
    (hOrderly : Orderly t'.client.books plans') (hFair : t'.client.cluster.faults.Fair)
    (hSettled : ∀ id, Settled t'.client.books plans' id →
      Settled t.client.books plans id ∧ t'.client.books.mode id = t.client.books.mode id)
    (hAnswer : ∀ id, Traffic.answer? id step = none) : Upheld t' (history ++ [step]) plans' := by
  refine ⟨hPlanned, hOrderly, hFair, fun id hNow => ?_⟩
  obtain ⟨hBefore, hMode⟩ := hSettled id hNow
  rw [Traffic.Answered, History.since_concat, hMode]
  refine .inr ⟨h.answered id hBefore, ?_⟩
  rw [hAnswer id]
  rintro ⟨⟩

/-- A step that leaves callers and books as they are. -/
theorem stay (h : Upheld t history plans) (hCallers : t'.callers = t.callers)
    (hBooks : t'.client.books = t.client.books) (hAnswer : ∀ id, Traffic.answer? id step = none) :
    Upheld t' (history ++ [step]) plans := by
  have hFaults : t'.client.cluster.faults = t.client.cluster.faults := congrArg Books.faults hBooks
  have hClosed : t'.client.closed = t.client.closed := congrArg Books.closed hBooks
  refine h.keep (hClosed ▸ hCallers ▸ h.planned) (hBooks ▸ h.orderly) (hFaults ▸ h.fair) ?_ hAnswer
  rw [hBooks]
  exact fun id hNow => ⟨hNow, rfl⟩

theorem begin (h : Upheld t history plans) (operation : Operation) :
    Upheld (t.perform (.begin operation)) (history ++ [(t, .begin operation)])
      (Function.update plans t.callers.length operation.plan) := by
  have hOver : plans t.callers.length = .idle :=
    h.planned.beyond _ (List.getElem?_eq_none (Nat.le_refl _))
  have hBegun := Function.update_self t.callers.length operation.plan plans
  have hOthers : ∀ j, j ≠ t.callers.length →
      Function.update plans t.callers.length operation.plan j = plans j :=
    fun j hOther => Function.update_of_ne hOther _ _
  have hOrderly := h.orderly.begin operation hOver hBegun hOthers
  refine h.keep (h.planned.begin operation) hOrderly h.fair (fun id hNow => ⟨?_, rfl⟩) fun _ => rfl
  refine ⟨hNow.listed, hNow.tracks, hNow.begun, fun j => ?_⟩
  by_cases hSame : j = t.callers.length
  · rw [hSame, hOver]
    rintro ⟨⟩
  · rw [← hOthers j hSame]
    exact hNow.answered j

/-- An activity that makes no turn. -/
theorem idle (h : Upheld t history plans) {caller : Caller} (hCaller : t.callers[i]? = some caller)
    {s : Client} {activity : Activity} (hTodo : activity.todo = caller.activity.todo)
    (hBooks : s.books = t.client.books) (hAnswer : ∀ id, Traffic.answer? id step = none) :
    Upheld ⟨s, t.callers.set i { caller with activity := activity }⟩ (history ++ [step]) plans := by
  have hFaults : s.cluster.faults = t.client.cluster.faults := congrArg Books.faults hBooks
  have hClosed : s.closed = t.client.closed := congrArg Books.closed hBooks
  have hPlanned := h.planned.set hCaller (hTodo.trans (h.planned.todo i caller hCaller)) id id
    (fun hBefore => hClosed.trans hBefore) .inr
  rw [Function.update_eq_self] at hPlanned
  refine h.keep hPlanned (hBooks ▸ h.orderly) (hFaults ▸ h.fair) (fun id hNow => ?_) hAnswer
  simp only [hBooks] at hNow ⊢
  exact ⟨hNow, trivial⟩

/-- An activity that takes a turn of its plan. -/
theorem turn (h : Upheld t history plans) (hApart : t.RenewsApart) {caller : Caller}
    (hCaller : t.callers[i]? = some caller)
    (hReady : t.client.activityIsReady caller.activity) {s : Client} {activity : Activity}
    {p : Plan} (hTodo : activity.todo = p.actions)
    (hTurn : Turn t.client.books (plans i) s.books p) :
    Upheld ⟨s, t.callers.set i { caller with activity := activity }⟩ (history ++ [(t, .advance i)])
      (Function.update plans i p) := by
  have hFiled := h.orderly.filed
  have hTurn' : Turn t.client.books (plans i) s.books (Function.update plans i p i) := by
    rwa [Function.update_self]
  have hOthers : ∀ j, j ≠ i → Function.update plans i p j = plans j :=
    fun j hOther => Function.update_of_ne hOther _ _
  have hFaults : s.cluster.faults = t.client.cluster.faults := hTurn.faults
  have hPlanned := h.planned.set hCaller hTodo hTurn.renews hTurn.plain hTurn.closed
    fun hPhase => .inl (hTurn.closed_of_closing hPhase)
  have hOrderly := h.orderly.turn (h.planned.undisturbed hApart) hTurn' hOthers
  refine ⟨hPlanned, hOrderly, hFaults ▸ h.fair, fun id hNow => ?_⟩
  rw [Traffic.Answered, History.since_concat]
  by_cases hAwaits : ∃ shape, (plans i).phase.awaits = some (id, shape)
  · obtain ⟨shape, hAwaits⟩ := hAwaits
    have hListed :=
      ((hTurn.footing hFiled).new id hNow.listed).resolve_right fun h => hNow.begun h.2
    have hKnown := h.orderly.owned.known id hListed
    have hVacant := h.orderly.heard.vacant i id (Phase.vacates_of_awaits hAwaits)
    rw [(hTurn.exchange hFiled).mode_of_awaits hAwaits hKnown hVacant]
    have hTodo' := h.planned.todo i caller hCaller
    exact .inl (answer?_of_awaits hCaller hTodo' hAwaits hReady h.fair hKnown)
  · have hAwaits' : ∀ shape, (plans i).phase.awaits ≠ some (id, shape) :=
      fun shape hShape => hAwaits ⟨shape, hShape⟩
    obtain ⟨hBefore, hMode⟩ := hNow.before hFiled h.orderly.owned hTurn' hOthers hAwaits'
    rw [hMode]
    refine .inr ⟨h.answered id hBefore, ?_⟩
    rw [answer?_of_not_awaits hCaller (h.planned.todo i caller hCaller) hAwaits']
    rintro ⟨⟩

theorem advance (h : Upheld t history plans) (hApart : t.RenewsApart) (i : Nat) :
    ∃ plans', Upheld (t.perform (.advance i)) (history ++ [(t, .advance i)]) plans' ∧
      Course t plans (.advance i) plans' := by
  cases hCaller : t.callers[i]? with
  | none =>
      have hSame : t.perform (.advance i) = t := by simp [Traffic.perform, Traffic.advance, hCaller]
      refine ⟨plans, h.stay (by rw [hSame]) (by rw [hSame]) fun id => ?_, .stay (by rw [hSame])⟩
      simp [Traffic.answer?, hCaller]
  | some caller =>
      have hTodo := h.planned.todo i caller hCaller
      have hPerform : t.perform (.advance i) =
          ⟨(t.client.advance caller.activity).result.1,
            t.callers.set i
              { caller with activity := (t.client.advance caller.activity).result.2 }⟩ := by
        simp [Traffic.perform, Traffic.advance, hCaller]
      have hStay (hBooks : (t.client.advance caller.activity).result.1.books = t.client.books) :
          Course t plans (.advance i) plans := .stay (by rw [hPerform, hBooks])
      rw [hPerform]
      by_cases hReady : t.client.activityIsReady caller.activity
      · by_cases hOver : caller.activity.todo = []
        · have hSame : (t.client.advance caller.activity).result = (t.client, caller.activity) := by
            rw [Client.advance, hOver]
            rfl
          refine ⟨plans, ?_, hStay (by rw [hSame])⟩
          rw [hSame]
          refine h.idle hCaller rfl rfl fun id => ?_
          simp [Traffic.answer?, hCaller, hOver]
        · obtain ⟨p, hTodo', hTurn⟩ := t.client.turn_of_ready (h.fair.bears _) hTodo hOver hReady
          refine ⟨_, h.turn hApart hCaller hReady hTodo' hTurn, .turn ?_⟩
          rwa [hPerform]
      · obtain ⟨hTodo', hBooks⟩ := t.client.books_of_waiting hReady
        exact ⟨plans, h.idle hCaller hTodo' hBooks fun id => answer?_of_waiting hCaller hReady,
          hStay hBooks⟩

theorem work (h : Upheld t history plans) (w : WorkerId) :
    Upheld (t.perform (.work w)) (history ++ [(t, .work w)]) plans := by
  have hCallers := t.callers_work w
  rcases t.books_work w with hSame | ⟨hTold, hRetired⟩
  · exact h.stay hCallers hSame fun _ => rfl
  · have hFaults : (t.perform (.work w)).client.cluster.faults = t.client.cluster.faults :=
      congrArg Books.faults hRetired
    have hClosed : (t.perform (.work w)).client.closed = t.client.closed :=
      congrArg Books.closed hRetired
    refine h.keep (hClosed ▸ hCallers ▸ h.planned) (hRetired ▸ h.orderly.retire hTold)
      (hFaults ▸ h.fair) ?_ fun _ => rfl
    rw [hRetired]
    exact fun id hNow => ⟨{ hNow with }, rfl⟩

theorem change (h : Upheld t history plans) (conditions : Conditions) :
    Upheld (t.perform (.change conditions)) (history ++ [(t, .change conditions)]) plans :=
  h.keep h.planned (h.orderly.withFaults _) h.fair (fun _ hNow => ⟨{ hNow with }, rfl⟩) fun _ => rfl

theorem perform (h : Upheld t history plans) (hApart : t.RenewsApart) (call : Traffic.Call) :
    ∃ plans', Upheld (t.perform call) (history ++ [(t, call)]) plans' ∧
      Course t plans call plans' := by
  cases call with
  | begin operation => exact ⟨_, h.begin operation, .begin⟩
  | advance i => exact h.advance hApart i
  | work w =>
      refine ⟨plans, h.work w, .stay ?_⟩
      rcases t.books_work w with hSame | ⟨-, hRetired⟩
      · rw [hSame]
      · rw [hRetired]
        rfl
  | wait millis => exact ⟨plans, h.stay rfl rfl fun _ => rfl, .stay rfl⟩
  | change conditions => exact ⟨plans, h.change conditions, .stay rfl⟩
  | deliver name event =>
      have hBooks := t.client.books_deliver name event
      exact ⟨plans, h.stay rfl hBooks fun _ => rfl, .stay (congrArg Books.entry hBooks)⟩

end Upheld

/-- Nobody has asked for anything yet. -/
theorem upheld_start (configs : ConfigCatalog) (coherence : CoherenceConfig) {cluster : Cluster}
    (hRegistrations : cluster.registrations = ∅) (hBindings : cluster.bindings = ∅)
    (hFair : cluster.faults.Fair) :
    Upheld (.start configs coherence cluster) [] fun _ => .idle := by
  have hNone : ∀ i : Nat, (Traffic.start configs coherence cluster).callers[i]? = none :=
    fun i => List.getElem?_nil
  have hPlanned : Planned (Traffic.start configs coherence cluster).client.closed
      (Traffic.start configs coherence cluster).callers fun _ => .idle := by
    refine ⟨fun i _ h => ?_, fun _ _ => rfl, fun i _ h => ?_, fun i _ h => ?_, fun i _ h => ?_⟩ <;>
      cases (hNone i).symm.trans h
  refine ⟨hPlanned, orderly_create configs coherence hRegistrations hBindings, hFair, ?_⟩
  rintro id ⟨⟨name, hEntry⟩, -, -, -⟩
  simp [Traffic.start, Client.books, Client.create] at hEntry

/-- Traffic is upheld all along, as long as listeners are renewed apart from what else goes on. -/
theorem upheld_of_run (configs : ConfigCatalog) (coherence : CoherenceConfig) {cluster : Cluster}
    (hRegistrations : cluster.registrations = ∅) (hBindings : cluster.bindings = ∅)
    (hFair : cluster.faults.Fair) (calls : List Traffic.Call)
    (hApart : ∀ step ∈ Traffic.steps (.start configs coherence cluster) calls,
      step.1.RenewsApart) :
    ∃ plans, Upheld (.run (.start configs coherence cluster) calls)
      (Traffic.steps (.start configs coherence cluster) calls) plans := by
  induction calls using List.reverseRecOn with
  | nil => exact ⟨_, upheld_start configs coherence hRegistrations hBindings hFair⟩
  | append_singleton calls call ih =>
      rw [Traffic.steps, History.steps_concat, ← Traffic.steps] at hApart ⊢
      rw [Traffic.run, History.run_concat, ← Traffic.run]
      obtain ⟨plans, hBefore⟩ := ih fun step hm => hApart step (List.mem_append_left _ hm)
      have hNow := hApart _ (List.mem_append_right _ (List.mem_singleton_self _))
      obtain ⟨plans', hAfter, -⟩ := hBefore.perform hNow call
      exact ⟨plans', hAfter⟩

end NearCache
