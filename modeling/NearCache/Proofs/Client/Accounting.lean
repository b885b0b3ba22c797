import NearCache.Proofs.Client.Apart

/-!
What a client comes to whenever all its callers have what they asked for: the cluster's
registrations and bindings are those of the subscriptions that caches in the directory hold, an
event reaches the cache that it is for and no other, every cache is in the mode of its last answer,
and the worker runs if a cache needs it.
-/

namespace NearCache

/-- A list in which one place alone counts. -/
theorem filterMap_of_only {α β : Type} {f : α → Option β} {l : List α} {a : α} {b : β}
    (hNodup : l.Nodup) (hm : a ∈ l) (hCounts : f a = some b) (hOnly : ∀ x ∈ l, x ≠ a → f x = none) :
    l.filterMap f = [b] := by
  obtain ⟨before, after, rfl⟩ := List.append_of_mem hm
  have hOther : a ∉ before ++ after := (List.nodup_cons.mp (List.nodup_middle.mp hNodup)).1
  have hNone : ∀ x ∈ before ++ after, f x = none := by
    intro x hx
    refine hOnly x ?_ fun hSame => hOther (hSame ▸ hx)
    exact List.mem_append.mpr ((List.mem_append.mp hx).imp_right (List.mem_cons_of_mem a))
  have hBefore := List.filterMap_eq_nil_iff.mpr fun x hx => hNone x (List.mem_append_left after hx)
  have hAfter := List.filterMap_eq_nil_iff.mpr fun x hx => hNone x (List.mem_append_right before hx)
  rw [List.filterMap_append, List.filterMap_cons_some hCounts, hBefore, hAfter]
  rfl

namespace Client

variable {s : Client} {plans : Nat → Plan} {name : String} {id : CacheId}
  {subscription : Subscription}

/-- The directory has a cache under this name that holds this subscription. -/
def Holds (s : Client) (name : String) (id : CacheId) (subscription : Subscription) : Prop :=
  s.directory[name]? = some id ∧ (s.caches[id]?).bind Cache.subscription = some subscription

/-- Registrations and bindings are those of the subscriptions that caches in the directory hold. -/
structure Accounted (s : Client) : Prop where
  named : ∀ name id subscription, s.Holds name id subscription → subscription.cacheName = name
  registered : ∀ r name, s.cluster.registrations[r]? = some name ↔
    ∃ id shape, s.Holds name id ⟨name, r, shape⟩
  bound : ∀ r id, s.cluster.bindings[r]? = some id ↔
    ∃ name shape, s.Holds name id ⟨name, r, shape⟩

/-- An event for a name reaches the cache that holds a subscription under it, once, and nothing
else. -/
def DeliversOnce (s : Client) : Prop :=
  (∀ name id subscription cache event, s.Holds name id subscription → s.caches[id]? = some cache →
    s.deliver name event =
      (s.modifyCache id fun _ => (cache.onEvent event).1, (cache.onEvent event).2.map fun _ => 1)) ∧
  ∀ name event, (∀ id subscription, ¬s.Holds name id subscription) →
    s.deliver name event = (s, .ok 0)

/-- No worker is left but the one that a start or a shutdown finds, and that one runs if a cache in
the directory takes part in reconciliation. -/
structure Manned (s : Client) : Prop where
  single : ∀ (w : WorkerId) (worker : Worker), s.workers[w]? = some worker →
    worker.isFinished = false → s.running = some w
  runs : ∀ (name : String) (id : CacheId) (cache : Cache), s.directory[name]? = some id →
    s.caches[id]? = some cache → cache.isCoherent → s.isRunning

/-- Nothing is left of the caches of a client, its listeners and its workers. -/
structure Dismantled (s : Client) : Prop where
  directory : s.directory = ∅
  registrations : s.cluster.registrations = ∅
  bindings : s.cluster.bindings = ∅
  workers : ∀ (w : WorkerId) (worker : Worker), s.workers[w]? = some worker → worker.isFinished

theorem books_held (s : Client) (id : CacheId) :
    s.books.held id = (s.caches[id]?).bind Cache.subscription := by
  simp only [Books.held, books]
  cases s.caches[id]? <;> rfl

theorem holds_iff (hOrderly : Orderly s.books plans)
    (hGuards : ∀ i, (plans i).phase.guards = none) :
    s.Holds name id subscription ↔
      s.books.held id = some subscription ∧ subscription.cacheName = name := by
  rw [Holds, ← books_held]
  constructor
  · rintro ⟨hEntry, hHeld⟩
    refine ⟨hHeld, ?_⟩
    have hNamed := hOrderly.filed.named name id hEntry
    rw [(hOrderly.ledger.held id subscription hHeld).2] at hNamed
    exact Option.some.inj hNamed
  · rintro ⟨hHeld, rfl⟩
    refine ⟨?_, hHeld⟩
    rcases hOrderly.heard.guarded id (by simp [hHeld]) with ⟨name, hEntry⟩ | ⟨i, hi⟩
    · have hNamed := hOrderly.filed.named name id hEntry
      rw [(hOrderly.ledger.held id subscription hHeld).2] at hNamed
      cases hNamed
      exact hEntry
    · cases (hGuards i).symm.trans hi

theorem accounted_of_idle (hOrderly : Orderly s.books plans) (hOver : ∀ i, plans i = .idle) :
    s.Accounted := by
  have hHolds : ∀ {name id subscription}, s.Holds name id subscription ↔
      s.books.held id = some subscription ∧ subscription.cacheName = name :=
    holds_iff hOrderly fun i => by rw [hOver i]; rfl
  have hBound : ∀ r id, s.cluster.bindings[r]? = some id ↔
      ∃ name shape, s.Holds name id ⟨name, r, shape⟩ := by
    intro r id
    constructor
    · intro hBound
      obtain ⟨name, shape, hHeld⟩ := hOrderly.heard.bound r id hBound
      exact ⟨name, shape, hHolds.mpr ⟨hHeld, rfl⟩⟩
    · rintro ⟨name, shape, h⟩
      exact (hOrderly.ledger.held id _ (hHolds.mp h).1).1
  refine ⟨fun name id subscription h => (hHolds.mp h).2, fun r name => ?_, hBound⟩
  constructor
  · intro hRegistered
    have hKnown : s.books.registered r = some name := hRegistered
    rcases hOrderly.ledger.registered r (by simp [hKnown]) with hSome | ⟨i, hi⟩
    · obtain ⟨id, hBinds⟩ := Option.ne_none_iff_exists'.mp hSome
      obtain ⟨name', shape, h⟩ := (hBound r id).mp hBinds
      have hTitle := (hOrderly.ledger.held id _ (hHolds.mp h).1).2
      have hSame := (hOrderly.ledger.bound r id hBinds).2
      rw [hKnown, hTitle] at hSame
      cases hSame
      exact ⟨id, shape, h⟩
    · rw [hOver i] at hi
      cases hi
  · rintro ⟨id, shape, h⟩
    obtain ⟨hBinds, hTitle⟩ := hOrderly.ledger.held id _ (hHolds.mp h).1
    exact (hOrderly.ledger.bound r id hBinds).2.trans hTitle

namespace Accounted

theorem handlers_of_holds (h : s.Accounted) (hHolds : s.Holds name id subscription) :
    s.cluster.handlers name = [id] := by
  obtain ⟨name', r, shape⟩ := subscription
  obtain rfl : name' = name := h.named name id _ hHolds
  have hHas : (r, name') ∈ s.cluster.registrations.toList :=
    Std.ExtTreeMap.mem_toList_iff_getElem?_eq_some.mpr
      ((h.registered r name').mpr ⟨id, shape, hHolds⟩)
  -- No other registration is recorded under the name.
  have hOnly : ∀ entry ∈ s.cluster.registrations.toList, entry.2 = name' → entry = (r, name') := by
    rintro ⟨r', name⟩ hm rfl
    obtain ⟨id', shape', hOther⟩ :=
      (h.registered r' name).mp (Std.ExtTreeMap.mem_toList_iff_getElem?_eq_some.mp hm)
    cases hOther.1.symm.trans hHolds.1
    cases hOther.2.symm.trans hHolds.2
    rfl
  have hNodup : s.cluster.registrations.toList.Nodup := by
    refine Std.ExtTreeMap.distinct_keys_toList.imp ?_
    rintro entry _ hDistinct rfl
    exact hDistinct Std.ReflCmp.compare_self
  refine filterMap_of_only hNodup hHas ?_ fun entry hm hOther => if_neg fun hName => ?_
  · rw [if_pos rfl]
    exact (h.bound r id).mpr ⟨name', shape, hHolds⟩
  · exact hOther (hOnly entry hm hName)

theorem handlers_of_none (h : s.Accounted)
    (hNone : ∀ id subscription, ¬s.Holds name id subscription) : s.cluster.handlers name = [] := by
  rw [Cluster.handlers, List.filterMap_eq_nil_iff]
  rintro ⟨r, name'⟩ hm
  refine if_neg fun hName => ?_
  obtain rfl : name' = name := hName
  obtain ⟨id, shape, hHolds⟩ :=
    (h.registered r name').mp (Std.ExtTreeMap.mem_toList_iff_getElem?_eq_some.mp hm)
  exact hNone id _ hHolds

theorem deliversOnce (h : s.Accounted) : s.DeliversOnce := by
  constructor
  · intro name id subscription cache event hHolds hKnown
    simp only [deliver, h.handlers_of_holds hHolds, deliverTo, hKnown]
    cases (cache.onEvent event).2 <;> rfl
  · intro name event hNone
    simp only [deliver, h.handlers_of_none hNone, deliverTo]
    rfl

/-- A cache has at most one binding. -/
theorem binding_unique (h : s.Accounted) {r r' : RegistrationId}
    (hBound : s.cluster.bindings[r]? = some id) (hBound' : s.cluster.bindings[r']? = some id) :
    r = r' := by
  obtain ⟨name, shape, -, hHeld⟩ := (h.bound r id).mp hBound
  obtain ⟨name', shape', -, hHeld'⟩ := (h.bound r' id).mp hBound'
  cases hHeld.symm.trans hHeld'
  rfl

end Accounted

theorem manned_of_idle (hOrderly : Orderly s.books plans) (hOver : ∀ i, plans i = .idle) :
    s.Manned := by
  have hStanding : ∀ w signalled, s.books.worker w = some signalled → s.running = some w := by
    intro w signalled hWorker
    rcases hOrderly.staffed.standing w signalled hWorker with hRunning | ⟨i, due, hm⟩
    · exact hRunning
    · rw [hOver i] at hm
      cases hm
  refine ⟨fun w worker hKnown hAlive => hStanding w worker.signalled ?_, ?_⟩
  · simp [books, hKnown, Worker.standing, hAlive]
  · intro name id cache hEntry hKnown hCoherent
    have hOpen : s.books.closed = false := by
      refine eq_false_of_ne_true fun hClosed => ?_
      have hSome : s.books.entry name = some id := hEntry
      obtain ⟨i, hi⟩ := hOrderly.winding.clears hClosed name (by simp [hSome])
      exact Plan.not_clears_idle name (hOver i ▸ hi)
    have hMode : s.books.Coherent id := by
      have hFace : s.books.face id = some cache.face := by simp [books, hKnown]
      simpa [Books.Coherent, Books.mode, hFace, ← Cache.face_isCoherent, Face.isCoherent]
        using hCoherent
    rcases hOrderly.heard.manned hOpen id ⟨name, hEntry⟩ hMode with hRunning | ⟨i, hi⟩
    · obtain ⟨w, hw⟩ := Option.ne_none_iff_exists'.mp hRunning
      rw [isRunning_iff]
      exact ⟨w, hw, by rw [hOrderly.staffed.running w hw]; rfl⟩
    · exact absurd (hOver i ▸ hi) Plan.not_starts_idle

theorem dismantled_of_idle (hOrderly : Orderly s.books plans) (hOver : ∀ i, plans i = .idle)
    (hClosed : s.closed = true) : s.Dismantled := by
  have hEntry : ∀ name : String, s.directory[name]? = none := by
    intro name
    by_contra hSome
    obtain ⟨i, hi⟩ := hOrderly.winding.clears hClosed name hSome
    exact Plan.not_clears_idle name (hOver i ▸ hi)
  have hHolds : ∀ name id subscription, ¬s.Holds name id subscription :=
    fun name id subscription h => by cases (hEntry name).symm.trans h.1
  have hAccounted := accounted_of_idle hOrderly hOver
  have hManned := manned_of_idle hOrderly hOver
  refine ⟨?_, ?_, ?_, fun w worker hKnown => ?_⟩
  · exact Std.ExtTreeMap.ext_getElem? fun name => by simp [hEntry name]
  · refine Std.ExtTreeMap.ext_getElem? fun r => ?_
    rw [Std.ExtTreeMap.getElem?_empty, Option.eq_none_iff_forall_ne_some]
    intro name hSome
    obtain ⟨id, shape, h⟩ := (hAccounted.registered r name).mp hSome
    exact hHolds name id _ h
  · refine Std.ExtTreeMap.ext_getElem? fun r => ?_
    rw [Std.ExtTreeMap.getElem?_empty, Option.eq_none_iff_forall_ne_some]
    intro id hSome
    obtain ⟨name, shape, h⟩ := (hAccounted.bound r id).mp hSome
    exact hHolds name id _ h
  · by_contra hAlive
    have hRunning : s.books.running = some w :=
      hManned.single w worker hKnown (eq_false_of_ne_true hAlive)
    obtain ⟨i, hi⟩ := hOrderly.winding.halts hClosed (by simp [hRunning])
    rw [hOver i] at hi
    exact hi.elim Plan.not_stops_idle Plan.not_handsOut_idle

end Client

namespace Traffic

/-- A cache without events is untracked, and any other in the mode of its last answer. -/
def ModeFits (history : List (Traffic × Call)) (id : CacheId) (cache : Cache) : Prop :=
  if cache.config.invalidateOnChange then cache.mode ≠ .untracked ∧ Answered id cache.mode history
  else cache.mode = .untracked

/-- A caller has shut the client down. -/
def ShutDown (t : Traffic) : Prop :=
  ∃ caller ∈ t.callers, caller.operation = .shutdownAll

instance (t : Traffic) : Decidable t.ShutDown :=
  inferInstanceAs (Decidable (∃ caller ∈ t.callers, caller.operation = .shutdownAll))

end Traffic

namespace Upheld

variable {t : Traffic} {history : List (Traffic × Traffic.Call)} {plans : Nat → Plan}

theorem accounted (h : Upheld t history plans) (hQuiet : t.Quiet) : t.client.Accounted :=
  Client.accounted_of_idle h.orderly (h.planned.eq_idle hQuiet)

theorem closed_of_shutDown (h : Upheld t history plans) (hQuiet : t.Quiet) (hShut : t.ShutDown) :
    t.client.closed = true := by
  obtain ⟨caller, hm, hOperation⟩ := hShut
  obtain ⟨i, hCaller⟩ := List.mem_iff_getElem?.mp hm
  rcases h.planned.closes i caller hCaller hOperation with hClosed | hPhase
  · exact hClosed
  · rw [h.planned.eq_idle hQuiet i] at hPhase
    cases hPhase

theorem dismantled (h : Upheld t history plans) (hQuiet : t.Quiet) (hShut : t.ShutDown) :
    t.client.Dismantled :=
  Client.dismantled_of_idle h.orderly (h.planned.eq_idle hQuiet) (h.closed_of_shutDown hQuiet hShut)

theorem modeFits (h : Upheld t history plans) (hQuiet : t.Quiet) {name : String} {id : CacheId}
    {cache : Cache} (hEntry : t.client.directory[name]? = some id)
    (hKnown : t.client.caches[id]? = some cache) : Traffic.ModeFits history id cache := by
  have hOver := h.planned.eq_idle hQuiet
  have hFace : t.client.books.face id = some cache.face := by simp [Client.books, hKnown]
  have hMode : t.client.books.mode id = cache.mode := by
    rw [Books.mode, hFace]
    rfl
  have hTracks : t.client.books.tracks id = cache.config.invalidateOnChange := by
    rw [Books.tracks, hFace]
    rfl
  have hListed : t.client.books.Lists id := ⟨name, hEntry⟩
  have hBegun : t.client.books.stage id ≠ some .pending := by
    intro hPending
    obtain ⟨i, hEnters⟩ := h.orderly.owned.pending id hPending hListed
    rw [hOver i] at hEnters
    cases hEnters
  have hIdle : ∀ i, (plans i).phase.vacates ≠ some id := by
    intro i
    rw [hOver i]
    rintro ⟨⟩
  unfold Traffic.ModeFits
  split
  next hWants =>
    have hTracked := hTracks.trans hWants
    have hAnswered := h.answered id ⟨hListed, hTracked, hBegun, hIdle⟩
    rw [hMode] at hAnswered
    refine ⟨fun hBlank => ?_, hAnswered⟩
    rcases h.orderly.heard.answered id hListed hTracked (hMode.trans hBlank) with hPending | ⟨i, hi⟩
    · exact hBegun hPending
    · exact hIdle i hi
  next hWants =>
    have hUntracked := hTracks.trans (eq_false_of_ne_true hWants)
    rw [← hMode, Books.mode_eq_untracked_iff]
    exact h.orderly.heard.untracked id hUntracked

end Upheld

/-- Whenever all callers that take turns one after the other have what they asked for, registrations
and bindings are those of the subscriptions that caches in the directory hold, events reach these
caches only, each cache is in the mode of its last answer, and the worker runs if it is needed. Once
a caller has shut the client down, nothing is left. -/
theorem accounting_in_turn (configs : ConfigCatalog) (coherence : CoherenceConfig)
    {cluster : Cluster} (hRegistrations : cluster.registrations = ∅)
    (hBindings : cluster.bindings = ∅) (hFair : cluster.faults.Fair) (calls : List Traffic.Call)
    (hInTurn : ∀ step ∈ Traffic.steps (.start configs coherence cluster) calls, Traffic.InTurn step)
    (hQuiet : (Traffic.run (.start configs coherence cluster) calls).Quiet) :
    let t := Traffic.run (.start configs coherence cluster) calls
    t.client.Accounted ∧ t.client.DeliversOnce ∧
      (∀ (name : String) (id : CacheId) (cache : Cache), t.client.directory[name]? = some id →
        t.client.caches[id]? = some cache →
        Traffic.ModeFits (Traffic.steps (.start configs coherence cluster) calls) id cache) ∧
      t.client.Manned ∧ (t.ShutDown → t.client.Dismantled) := by
  have hApart := Traffic.renewsApart_of_alone configs coherence hRegistrations hBindings hFair calls
    fun step hm => (hInTurn step hm).renewsAlone
  obtain ⟨plans, h⟩ := upheld_of_run configs coherence hRegistrations hBindings hFair calls hApart
  have hAccounted := h.accounted hQuiet
  refine ⟨hAccounted, hAccounted.deliversOnce, ?_, ?_, h.dismantled hQuiet⟩
  · exact fun name id cache hEntry hKnown => h.modeFits hQuiet hEntry hKnown
  · exact Client.manned_of_idle h.orderly (h.planned.eq_idle hQuiet)

/-- A cache is opened while the cluster refuses listeners, and all listeners are renewed once it
does not. -/
def Traffic.refusedThenRenewed : List Traffic.Call :=
  let members := #[Member.create (Cluster.localAddress 0)]
  .change ⟨members, ⟨4, 2, 0⟩, true, none⟩ :: .begin (.getOrCreate "orders") ::
    List.replicate 9 (.advance 0) ++
  .change ⟨members, ⟨4, 2, 0⟩, false, none⟩ :: .begin .resubscribeAll ::
    List.replicate 7 (.advance 1)

/-- A cache whose listener was refused is bound by the next failover. -/
theorem accounting_after_failover :
    let start := Traffic.start (.ofList [.ofName "orders"]) .default (.ofSize 1)
    let t := Traffic.run start Traffic.refusedThenRenewed
    t.Quiet ∧ t.client.Accounted ∧ t.client.DeliversOnce ∧ t.client.Manned ∧
      t.client.cluster.registrations.toList = [("reg-1", "orders")] ∧
      (t.client.caches[0]?).map Cache.mode = some .repairable ∧
      ∀ cache, t.client.caches[0]? = some cache →
        Traffic.ModeFits (Traffic.steps start Traffic.refusedThenRenewed) 0 cache := by
  have hQuiet : (Traffic.run (.start (.ofList [.ofName "orders"]) .default (.ofSize 1))
      Traffic.refusedThenRenewed).Quiet := by decide
  obtain ⟨hAccounted, hDelivers, hModes, hManned, -⟩ :=
    accounting_in_turn _ _ rfl rfl ⟨rfl, rfl, rfl⟩ Traffic.refusedThenRenewed (by decide) hQuiet
  exact ⟨hQuiet, hAccounted, hDelivers, hManned, by decide, by decide,
    fun cache hKnown => hModes "orders" 0 cache (by decide) hKnown⟩

end NearCache
