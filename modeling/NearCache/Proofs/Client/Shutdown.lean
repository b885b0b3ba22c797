import NearCache.Proofs.Client.Accounting

/-!
What a shutdown leaves behind. A client that was closed stays closed, a caller that asks for a cache
looks whether the client is closed before it is over, and so nobody gets a cache that a shutdown may
have missed.
-/

namespace NearCache

/-- The client that an action leaves, whatever became of the action. -/
def Progress.client : Progress → Client
  | .waiting s _ | .moved s _ _ | .stopped s _ => s

section Closed

namespace Client

variable {s : Client} (me : ActivityId)

theorem closed_unwind (todo : List Action) : (s.unwind todo).closed = s.closed := by
  induction todo generalizing s with
  | nil => rfl
  | cons action rest ih =>
      rw [unwind, List.foldl_cons, ← unwind, ih]
      cases action <;> rfl

theorem closed_awaitRound (round : Round) (again : Round → Action) {finish : Round → Progress}
    (hFinish : ∀ round, (finish round).client.closed = s.closed) :
    (s.awaitRound round again finish).client.closed = s.closed := by
  unfold awaitRound
  split
  · rfl
  · split
    · exact hFinish _
    · rfl

theorem closed_awaitListener (id : CacheId) (shape : EventShape) (followUp : FollowUp) :
    (s.awaitListener id shape followUp).client.closed = s.closed := by
  unfold awaitListener
  cases s.caches[id]? with
  | none => rfl
  | some cache =>
      dsimp only
      cases listenerResult cache shape (.addListener cache.name shape true)
        (s.cluster.answer (.addListener cache.name shape true)).2 with
      | error e => cases followUp <;> rfl
      | ok subscription =>
          obtain ⟨_, _, negotiated⟩ := subscription
          cases followUp <;> cases negotiated <;> rfl

/-- No action opens a client that was closed. -/
theorem closed_act (hClosed : s.closed = true) (action : Action) :
    (s.act me action).client.closed = true := by
  cases action with
  | close => rfl
  | findOrCreate name =>
      simp only [act, openCache, hClosed]
      exact hClosed
  | handOut name id =>
      simp only [act, handOut, hClosed]
      exact hClosed
  | awaitListener id shape due followUp =>
      exact (closed_awaitListener id shape followUp).trans hClosed
  | awaitSeed id round => exact (closed_awaitRound (s := s) round _ fun _ => rfl).trans hClosed
  | awaitFetch round => exact (closed_awaitRound (s := s) round _ fun _ => rfl).trans hClosed
  | enterSetup id | sealSetup id | unsubscribe id | seed id limit | resubscribe id
  | send request place =>
      simp only [act, enterSetup, sealSetup, unsubscribe, seed, resubscribe, send]
      split
      · exact hClosed
      · split <;> exact hClosed
  | subscribe id followUp | awaitRemoval request lost | startWorker | stopWorker
  | awaitWorker worker due | destroy name | fetch names limit | awaitCall call =>
      simp only [act, subscribe, awaitRemoval, startWorker, stopWorker, awaitWorker, destroyCache,
        awaitCall]
      split <;> exact hClosed
  | finishSetup id | release id | destroyAll | resubscribeAll | sleep due
  | awaitAnswer request due | conclude outcome => exact hClosed

theorem closed_advance (hClosed : s.closed = true) (a : Activity) :
    (s.advance a).result.1.closed = true := by
  cases hSplit : a.todo with
  | nil =>
      simp only [advance, hSplit]
      exact hClosed
  | cons action rest =>
      have hAct := closed_act a.id hClosed action
      simp only [advance, hSplit, perform]
      by_cases hReady : s.isReady a.id action
      · rw [if_pos hReady]
        cases hProgress : s.act a.id action with
        | waiting s' action' => rwa [hProgress] at hAct
        | moved s' todo outcome => rwa [hProgress] at hAct
        | stopped s' fault =>
            rw [hProgress] at hAct
            exact (closed_unwind _).trans hAct
      · rw [if_neg hReady]
        cases action <;> exact hClosed

end Client

/-- A client that was closed stays closed. -/
theorem Traffic.closed_perform {t : Traffic} (hClosed : t.client.closed = true)
    (call : Traffic.Call) : (t.perform call).client.closed = true := by
  cases call with
  | begin operation => exact hClosed
  | advance i =>
      simp only [perform, advance]
      split
      · exact hClosed
      · exact Client.closed_advance hClosed _
  | work w =>
      rcases t.books_work w with hSame | ⟨-, hRetired⟩
      · exact (congrArg Books.closed hSame).trans hClosed
      · exact (congrArg Books.closed hRetired).trans hClosed
  | wait millis => exact hClosed
  | change conditions => exact hClosed
  | deliver name event =>
      exact (congrArg Books.closed (t.client.books_deliver name event)).trans hClosed

end Closed

section Unserved

/-- No fault stops the first action of an activity. -/
def Client.Carries (s : Client) (a : Activity) : Prop :=
  ∀ action rest, a.todo = action :: rest → s.isReady a.id action →
    ∀ s' fault, s.act a.id action ≠ .stopped s' fault

theorem Client.carries_of_planned {s : Client} {a : Activity} {p : Plan}
    (hFair : s.cluster.faults.Fair) (hTodo : a.todo = p.actions) : s.Carries a := by
  intro action rest hSplit hReady s' fault hStopped
  have hNext : a.todo ≠ [] := hSplit ▸ List.cons_ne_nil action rest
  have hReady' : s.activityIsReady a := by rwa [activityIsReady, hSplit]
  obtain ⟨action', rest', hSplit', -, hTurn⟩ :=
    s.isTurn_of_ready (hFair.bears _) hTodo hNext hReady'
  cases hSplit.symm.trans hSplit'
  rw [hStopped] at hTurn
  exact hTurn

/-- What an activity does after its first action is left alone, as long as no fault stops that. -/
theorem Client.todo_advance {s : Client} {a : Activity} {action : Action} {rest : List Action}
    (hSplit : a.todo = action :: rest) (hCarries : s.Carries a) :
    ∃ front, (s.advance a).result.2.todo = front ++ rest := by
  simp only [advance, hSplit, perform]
  by_cases hReady : s.isReady a.id action
  · rw [if_pos hReady]
    cases hProgress : s.act a.id action with
    | waiting s' action' => exact ⟨[action'], rfl⟩
    | moved s' todo outcome => exact ⟨todo, rfl⟩
    | stopped s' fault => exact absurd hProgress (hCarries action rest hSplit hReady s' fault)
  · rw [if_neg hReady]
    exact ⟨[action], rfl⟩

namespace Activity

/-- Nobody has got a cache by this activity: it will still look whether the client is closed, or it
has turned out that there is no cache to hand out. -/
inductive Unserved (a : Activity) : Prop
  | asking {name : String} (hTodo : a.todo = [.findOrCreate name])
  | handing {before : List Action} {name : String} {id : CacheId}
      (hTodo : a.todo = before ++ [.handOut name id])
  | leaving {before : List Action} (hTodo : a.todo = before ++ [.conclude (.handle none)])
  | declined (hTodo : a.todo = []) (hOutcome : a.outcome = .handle none)

variable {s : Client} {a : Activity}

/-- A caller that asks for a cache goes on to its setup, unless there is none for it. -/
theorem Unserved.of_asking {name : String} (hTodo : a.todo = [.findOrCreate name]) :
    (s.advance a).result.2.Unserved := by
  simp only [Client.advance, hTodo, Client.perform, Client.isReady, Client.act, Client.openCache,
    if_true]
  by_cases hClosed : s.closed
  · rw [if_pos hClosed]
    exact .declined rfl rfl
  rw [if_neg hClosed]
  cases s.configs.find? name with
  | none => exact .declined rfl rfl
  | some config =>
      cases s.directory[name]? with
      | none => exact @Unserved.handing _ [.enterSetup _] _ _ rfl
      | some id => exact @Unserved.handing _ [.enterSetup id] _ _ rfl

/-- A caller that hands out a cache does so only if the client is not closed. -/
theorem Unserved.of_handing {name : String} {id : CacheId} (hTodo : a.todo = [.handOut name id]) :
    (s.advance a).result.2.Unserved ∨ ((s.advance a).result.2.isOver ∧ s.closed = false) := by
  simp only [Client.advance, hTodo, Client.perform, Client.isReady, Client.act, Client.handOut,
    if_true]
  cases hClosed : s.closed with
  | true => exact .inl (@Unserved.leaving _ [.stopWorker, .destroy name] rfl)
  | false => exact .inr ⟨rfl, rfl⟩

theorem Unserved.advance (h : a.Unserved) (hCarries : s.Carries a) :
    (s.advance a).result.2.Unserved ∨ ((s.advance a).result.2.isOver ∧ s.closed = false) := by
  cases h with
  | asking hTodo => exact .inl (.of_asking hTodo)
  | @handing before name id hTodo =>
      cases before with
      | nil => exact Unserved.of_handing hTodo
      | cons action rest =>
          obtain ⟨front, hFront⟩ := Client.todo_advance hTodo hCarries
          exact .inl (.handing (hFront.trans (List.append_assoc front rest _).symm))
  | @leaving before hTodo =>
      cases before with
      | nil =>
          refine .inl (.declined ?_ ?_) <;>
            simp only [Client.advance, hTodo, List.nil_append, Client.perform, Client.isReady,
              Client.act, if_true] <;>
            rfl
      | cons action rest =>
          obtain ⟨front, hFront⟩ := Client.todo_advance hTodo hCarries
          exact .inl (.leaving (hFront.trans (List.append_assoc front rest _).symm))
  | declined hTodo hOutcome =>
      rw [Client.advance_of_isOver (List.isEmpty_iff.mpr hTodo)]
      exact .inl (.declined hTodo hOutcome)

theorem Unserved.outcome (h : a.Unserved) (hOver : a.isOver) : a.outcome = .handle none := by
  have hNil : a.todo = [] := List.isEmpty_iff.mp hOver
  cases h with
  | asking hTodo => cases hTodo.symm.trans hNil
  | handing hTodo =>
      exact absurd (hTodo.symm.trans hNil) (List.append_ne_nil_of_right_ne_nil _ nofun)
  | leaving hTodo =>
      exact absurd (hTodo.symm.trans hNil) (List.append_ne_nil_of_right_ne_nil _ nofun)
  | declined _ hOutcome => exact hOutcome

end Activity

end Unserved

/-- Whoever does this asks for a cache. -/
def Operation.Asks (operation : Operation) : Prop :=
  ∃ name, operation = .getOrCreate name

instance : DecidablePred Operation.Asks := fun
  | .getOrCreate name => isTrue ⟨name, rfl⟩
  | .destroy _ | .resubscribeAll | .shutdownAll => isFalse nofun

/-- Whether an action closes the client. -/
def Action.closes : Action → Bool
  | .close => true
  | _ => false

namespace Traffic

/-- The caller of a place has asked for a cache. -/
def Asks (t : Traffic) (i : Nat) : Prop :=
  ∃ caller, t.callers[i]? = some caller ∧ caller.operation.Asks

instance (t : Traffic) (i : Nat) : Decidable (t.Asks i) :=
  inferInstanceAs (Decidable (∃ caller ∈ t.callers[i]?, caller.operation.Asks))

/-- The caller of a place has asked for a cache, and waits for it. -/
def AsksStill (t : Traffic) (i : Nat) : Prop :=
  ∃ caller, t.callers[i]? = some caller ∧ caller.operation.Asks ∧ ¬caller.activity.isOver

instance (t : Traffic) (i : Nat) : Decidable (t.AsksStill i) :=
  inferInstanceAs
    (Decidable (∃ caller ∈ t.callers[i]?, caller.operation.Asks ∧ ¬caller.activity.isOver))

/-- The caller of a place has got no cache, and will not get one any more. -/
def Declined (t : Traffic) (i : Nat) : Prop :=
  ∃ caller, t.callers[i]? = some caller ∧ caller.activity.isOver ∧
    caller.activity.outcome = .handle none

/-- A shutdown has begun, so that it has closed the client. -/
def ShuttingDown (t : Traffic) : Prop :=
  ∃ caller ∈ t.callers, caller.operation = .shutdownAll ∧ ¬caller.activity.todo.any Action.closes

instance (t : Traffic) : Decidable t.ShuttingDown :=
  inferInstanceAs (Decidable (∃ caller ∈ t.callers,
    caller.operation = .shutdownAll ∧ ¬caller.activity.todo.any Action.closes))

/-- Nobody got a cache without a look whether the client is closed. -/
def Candid (t : Traffic) : Prop :=
  ∀ (i : Nat) (caller : Caller) (name : String), t.callers[i]? = some caller →
    caller.operation = .getOrCreate name → caller.activity.Unserved ∨ caller.activity.isOver

end Traffic

section Runs

variable {t : Traffic} {history : List (Traffic × Traffic.Call)} {plans : Nat → Plan} {i : Nat}
  {caller : Caller}

theorem Upheld.carries (h : Upheld t history plans) (hCaller : t.callers[i]? = some caller) :
    t.client.Carries caller.activity :=
  Client.carries_of_planned h.fair (h.planned.todo i caller hCaller)

theorem Upheld.closed_of_shuttingDown (h : Upheld t history plans) (hShutting : t.ShuttingDown) :
    t.client.closed = true := by
  obtain ⟨caller, hm, hOperation, hPast⟩ := hShutting
  obtain ⟨i, hCaller⟩ := List.mem_iff_getElem?.mp hm
  rcases h.planned.closes i caller hCaller hOperation with hClosed | hPhase
  · exact hClosed
  · refine absurd ?_ hPast
    rw [h.planned.todo i caller hCaller, Plan.actions, hPhase]
    rfl

theorem Upheld.candid_perform (h : Upheld t history plans) (hCandid : t.Candid)
    (call : Traffic.Call) : (t.perform call).Candid := by
  intro i caller name hCaller hOperation
  cases hFormer : t.callers[i]? with
  | none =>
      obtain ⟨-, hTodo, -⟩ := Traffic.begun_of_perform hCaller hFormer
      rw [hOperation] at hTodo
      exact .inl (.asking hTodo)
  | some former =>
      obtain ⟨activity, hNow, hStep⟩ := Traffic.caller_perform hFormer call
      cases hNow.symm.trans hCaller
      have hBefore := hCandid i former name hFormer hOperation
      rcases hStep with rfl | ⟨-, rfl⟩
      · exact hBefore
      · rcases hBefore with hUnserved | hOver
        · exact (hUnserved.advance (h.carries hFormer)).imp_right And.left
        · rw [Client.advance_of_isOver hOver]
          exact .inr hOver

/-- Once the client is closed, a caller without a cache gets none any more. -/
theorem Upheld.unserved_perform (h : Upheld t history plans) (hClosed : t.client.closed = true)
    (hCaller : t.callers[i]? = some caller) (hUnserved : caller.activity.Unserved)
    (call : Traffic.Call) :
    ∃ activity : Activity,
      (t.perform call).callers[i]? = some { caller with activity := activity } ∧
      activity.Unserved := by
  obtain ⟨activity, hNow, hStep⟩ := Traffic.caller_perform hCaller call
  refine ⟨activity, hNow, ?_⟩
  rcases hStep with rfl | ⟨-, rfl⟩
  · exact hUnserved
  · refine (hUnserved.advance (h.carries hCaller)).resolve_right fun hOpen => ?_
    cases hOpen.2.symm.trans hClosed

end Runs

section Shutdown

variable (configs : ConfigCatalog) (coherence : CoherenceConfig) {cluster : Cluster}
  (hRegistrations : cluster.registrations = ∅) (hBindings : cluster.bindings = ∅)
  (hFair : cluster.faults.Fair)
include hRegistrations hBindings hFair

theorem candid_of_run (calls : List Traffic.Call)
    (hApart : ∀ step ∈ Traffic.steps (.start configs coherence cluster) calls,
      step.1.RenewsApart) :
    (Traffic.run (.start configs coherence cluster) calls).Candid := by
  induction calls using List.reverseRecOn with
  | nil =>
      intro i caller name hCaller
      cases (List.getElem?_nil (i := i)).symm.trans hCaller
  | append_singleton calls call ih =>
      rw [Traffic.steps, History.steps_concat, ← Traffic.steps] at hApart
      rw [Traffic.run, History.run_concat, ← Traffic.run]
      have hBefore := fun step hm => hApart step (List.mem_append_left _ hm)
      obtain ⟨plans, h⟩ :=
        upheld_of_run configs coherence hRegistrations hBindings hFair calls hBefore
      exact h.candid_perform (ih hBefore) call

/-- A caller without a cache at a moment when the client is closed has none at any later one. -/
theorem unserved_of_run {i : Nat} {caller : Caller} (before after : List Traffic.Call)
    (hApart : ∀ step ∈ Traffic.steps (.start configs coherence cluster) (before ++ after),
      step.1.RenewsApart)
    (hClosed : (Traffic.run (.start configs coherence cluster) before).client.closed = true)
    (hCaller : (Traffic.run (.start configs coherence cluster) before).callers[i]? = some caller)
    (hUnserved : caller.activity.Unserved) :
    (Traffic.run (.start configs coherence cluster) (before ++ after)).client.closed = true ∧
      ∃ activity : Activity,
        (Traffic.run (.start configs coherence cluster) (before ++ after)).callers[i]? =
          some { caller with activity := activity } ∧ activity.Unserved := by
  induction after using List.reverseRecOn with
  | nil => exact ⟨by rwa [List.append_nil], caller.activity, by rwa [List.append_nil], hUnserved⟩
  | append_singleton after call ih =>
      rw [← List.append_assoc] at hApart ⊢
      rw [Traffic.steps, History.steps_concat, ← Traffic.steps] at hApart
      rw [Traffic.run, History.run_concat, ← Traffic.run]
      have hBefore := fun step hm => hApart step (List.mem_append_left _ hm)
      obtain ⟨plans, h⟩ :=
        upheld_of_run configs coherence hRegistrations hBindings hFair (before ++ after) hBefore
      obtain ⟨hClosed', activity, hCaller', hUnserved'⟩ := ih hBefore
      obtain ⟨activity', hNow, hKept⟩ := h.unserved_perform hClosed' hCaller' hUnserved' call
      exact ⟨Traffic.closed_perform hClosed' call, activity', hNow, hKept⟩

end Shutdown

section Later

variable {t : Traffic} {i n : Nat}

theorem Client.advance_of_asking {s : Client} (hClosed : s.closed = true) {a : Activity}
    {name : String} (hTodo : a.todo = [.findOrCreate name]) :
    (s.advance a).result = (s, { a with todo := [], outcome := .handle none }) := by
  simp only [advance, hTodo, perform, isReady, act, openCache, hClosed, if_true]
  rfl

/-- The callers from a place on that ask for a cache have not begun, or got none. -/
def Traffic.TurnsAway (t : Traffic) (n : Nat) : Prop :=
  ∀ (i : Nat) (caller : Caller) (name : String), n ≤ i → t.callers[i]? = some caller →
    caller.operation = .getOrCreate name → caller.activity.todo = [.findOrCreate name] ∨
      (caller.activity.isOver ∧ caller.activity.outcome = .handle none)

theorem Traffic.TurnsAway.perform (h : t.TurnsAway n) (hClosed : t.client.closed = true)
    (call : Traffic.Call) : (t.perform call).TurnsAway n := by
  intro i caller name hLater hCaller hOperation
  cases hFormer : t.callers[i]? with
  | none =>
      obtain ⟨-, hTodo, -⟩ := begun_of_perform hCaller hFormer
      rw [hOperation] at hTodo
      exact .inl hTodo
  | some former =>
      obtain ⟨activity, hNow, hStep⟩ := caller_perform hFormer call
      cases hNow.symm.trans hCaller
      have hBefore := h i former name hLater hFormer hOperation
      rcases hStep with rfl | ⟨-, rfl⟩
      · exact hBefore
      · rcases hBefore with hAsking | hOver
        · rw [Client.advance_of_asking hClosed hAsking]
          exact .inr ⟨rfl, rfl⟩
        · rw [Client.advance_of_isOver hOver.1]
          exact .inr hOver

theorem Traffic.turnsAway_of_run (hClosed : t.client.closed = true) (more : List Traffic.Call) :
    (t.run more).client.closed = true ∧ (t.run more).TurnsAway t.callers.length := by
  induction more using List.reverseRecOn with
  | nil =>
      refine ⟨hClosed, fun i caller name hLater hCaller => ?_⟩
      exact absurd (List.getElem?_eq_some_iff.mp hCaller).1 (Nat.not_lt_of_le hLater)
  | append_singleton more call ih =>
      rw [run, History.run_concat, ← run]
      exact ⟨closed_perform ih.1 call, ih.2.perform ih.1 call⟩

/-- A caller that is turned away is so in one step, which asks nothing of the cluster. -/
theorem Traffic.TurnsAway.declined (h : t.TurnsAway n) (hClosed : t.client.closed = true)
    (hLater : n ≤ i) (hAsks : t.Asks i) :
    (t.advance i).Declined i ∧ (t.advance i).client = t.client := by
  obtain ⟨caller, hCaller, name, hOperation⟩ := hAsks
  obtain ⟨hLess, -⟩ := List.getElem?_eq_some_iff.mp hCaller
  simp only [advance, hCaller]
  rcases h i caller name hLater hCaller hOperation with hAsking | ⟨hOver, hOutcome⟩
  · rw [Client.advance_of_asking hClosed hAsking]
    exact ⟨⟨_, List.getElem?_set_self hLess, rfl, rfl⟩, rfl⟩
  · rw [Client.advance_of_isOver hOver]
    exact ⟨⟨_, List.getElem?_set_self hLess, hOver, hOutcome⟩, rfl⟩

end Later

/-- However callers that open and destroy caches overlap with shutdowns: once all have what they
asked for, nothing is left of the client, whoever waited for a cache at a moment when a shutdown had
begun has got none, and whoever asks later gets none and sends no request for it. -/
theorem shutdown_is_final (configs : ConfigCatalog) (coherence : CoherenceConfig)
    {cluster : Cluster} (hRegistrations : cluster.registrations = ∅)
    (hBindings : cluster.bindings = ∅) (hFair : cluster.faults.Fair) (calls : List Traffic.Call)
    (hNoRenewal : ∀ operation, .begin operation ∈ calls → operation ≠ .resubscribeAll)
    (hQuiet : (Traffic.run (.start configs coherence cluster) calls).Quiet)
    (hShut : (Traffic.run (.start configs coherence cluster) calls).ShutDown) :
    let start := Traffic.start configs coherence cluster
    let t := start.run calls
    t.client.Dismantled ∧
      (∀ before after, calls = before ++ after → (start.run before).ShuttingDown →
        ∀ i, (start.run before).AsksStill i → t.Declined i) ∧
      ∀ more i, t.callers.length ≤ i → (t.run more).Asks i →
        ((t.run more).advance i).Declined i ∧
          ((t.run more).advance i).client = (t.run more).client := by
  have hApart : ∀ step ∈ Traffic.steps (.start configs coherence cluster) calls,
      step.1.RenewsApart := Traffic.renewsApart_of_calls hNoRenewal
  obtain ⟨plans, h⟩ := upheld_of_run configs coherence hRegistrations hBindings hFair calls hApart
  refine ⟨h.dismantled hQuiet hShut, ?_, ?_⟩
  · rintro before after rfl hShutting i ⟨caller, hCaller, ⟨name, hOperation⟩, hWaits⟩
    have hBefore : ∀ step ∈ Traffic.steps (.start configs coherence cluster) before,
        step.1.RenewsApart := by
      intro step hm
      refine hApart step ?_
      rw [Traffic.steps, History.steps_append]
      exact List.mem_append_left _ hm
    obtain ⟨plans', h'⟩ :=
      upheld_of_run configs coherence hRegistrations hBindings hFair before hBefore
    have hCandid := candid_of_run configs coherence hRegistrations hBindings hFair before hBefore
    have hUnserved := (hCandid i caller name hCaller hOperation).resolve_right hWaits
    obtain ⟨-, activity, hNow, hStill⟩ := unserved_of_run configs coherence hRegistrations hBindings
      hFair before after hApart (h'.closed_of_shuttingDown hShutting) hCaller hUnserved
    have hOver := hQuiet _ (List.mem_of_getElem? hNow)
    exact ⟨_, hNow, hOver, hStill.outcome hOver⟩
  · intro more i hLater hAsks
    have hClosed := h.closed_of_shutDown hQuiet hShut
    obtain ⟨hClosed', hTurnsAway⟩ := Traffic.turnsAway_of_run hClosed more
    exact hTurnsAway.declined hClosed' hLater hAsks

/-- A client is shut down while the cluster takes its time over the listener of a cache. -/
def Traffic.shutDownWhileOpened : List Traffic.Call :=
  .change ⟨#[.create (Cluster.localAddress 0)], ⟨4, 2, 0⟩, false, some 100⟩ ::
    .begin (.getOrCreate "orders") :: List.replicate 3 (.advance 0) ++
  .begin .shutdownAll :: List.replicate 5 (.advance 1) ++
  .wait 100 :: List.replicate 7 (.advance 0) ++ .work 0 :: List.replicate 3 (.advance 0) ++
  List.replicate 7 (.advance 1)

/-- The setup that a shutdown meets registers a listener and starts a worker. Neither is left, and
its caller gets no cache. -/
theorem shutdown_is_final_while_opening :
    let start := Traffic.start (.ofList [.ofName "orders"]) .default (.ofSize 1)
    let t := start.run Traffic.shutDownWhileOpened
    let later := t.run [.begin (.getOrCreate "orders")]
    t.Quiet ∧ t.client.cluster.addedCount "orders" = 1 ∧ t.client.nextWorker = 1 ∧
      t.client.Dismantled ∧ t.Declined 0 ∧
      (later.advance 2).Declined 2 ∧ (later.advance 2).client = later.client := by
  have hQuiet : (Traffic.run (.start (.ofList [.ofName "orders"]) .default (.ofSize 1))
      Traffic.shutDownWhileOpened).Quiet := by decide
  have hNoRenewal : ∀ operation, .begin operation ∈ Traffic.shutDownWhileOpened →
      operation ≠ .resubscribeAll := by
    rintro operation hm rfl
    simp [Traffic.shutDownWhileOpened] at hm
  obtain ⟨hDismantled, hWaiting, hLater⟩ := shutdown_is_final _ _ rfl rfl ⟨rfl, rfl, rfl⟩
    Traffic.shutDownWhileOpened hNoRenewal hQuiet (by decide)
  -- By the eleventh call the shutdown has begun, and the listener is still to come.
  have hDeclined := hWaiting (Traffic.shutDownWhileOpened.take 11)
    (Traffic.shutDownWhileOpened.drop 11) (List.take_append_drop 11 _).symm (by decide) 0
    (by decide)
  have hTurnedAway := hLater [.begin (.getOrCreate "orders")] 2 (by decide) (by decide)
  exact ⟨hQuiet, by decide, by decide, hDismantled, hDeclined, hTurnedAway⟩

end NearCache
