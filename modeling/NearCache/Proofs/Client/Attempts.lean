import NearCache.Proofs.Client.Grants
import NearCache.Proofs.Client.Runs

/-!
What attempts to open one cache leave behind. A cache that was granted several listeners, since
faults stopped the attempts before the last, gives back that of the last one when it is destroyed.
The others stay.
-/

namespace NearCache

/-- This many listeners are registered, and as many are bound. -/
def Cluster.HasListeners (c : Cluster) (count : Nat) : Prop :=
  c.activeCount = count ∧ c.bindings.size = count

instance (c : Cluster) (count : Nat) : Decidable (c.HasListeners count) :=
  inferInstanceAs (Decidable (_ ∧ _))

/-- A map that has values at these keys and nowhere else. -/
theorem size_of_keys {α β : Type} [Ord α] [Std.TransOrd α] [Std.LawfulEqOrd α]
    {m : Std.ExtTreeMap α β} {keys : List α} (hNodup : keys.Nodup)
    (hKeys : ∀ k, m[k]? ≠ none ↔ k ∈ keys) : m.size = keys.length := by
  rw [← Std.ExtTreeMap.length_keys]
  refine ((List.perm_ext_iff_of_nodup Std.ExtTreeMap.nodup_keys hNodup).mpr fun k => ?_).length_eq
  rw [Std.ExtTreeMap.mem_keys, ← hKeys, Std.ExtTreeMap.mem_iff_isSome_getElem?,
    Option.isSome_iff_ne_none]

/-- Registrations and bindings are at these places and nowhere else. -/
structure Books.Registers (b : Books) (registered bound : List RegistrationId) : Prop where
  registered : ∀ r, b.registered r ≠ none ↔ r ∈ registered
  bound : ∀ r, b.bound r ≠ none ↔ r ∈ bound

theorem Books.Registers.hasListeners {s : Client} {rs : List RegistrationId}
    (h : s.books.Registers rs rs) (hNodup : rs.Nodup) : s.cluster.HasListeners rs.length :=
  ⟨size_of_keys hNodup h.registered, size_of_keys hNodup h.bound⟩

/-- How far a destroy has come of a cache that was granted these listeners, and what is left of
them: all, or all but the last. -/
inductive Emptying (name : String) (rs : List RegistrationId) (b : Books) : Plan → Prop
  | asked (hTallied : Tallied name b rs) : Emptying name rs b ⟨.free, [.destroy name]⟩
  | sealing {id : CacheId} (hRegisters : b.Registers rs rs)
      (hHeld : (b.held id).map Subscription.registration = rs.getLast?) :
      Emptying name rs b ⟨.sealing id, []⟩
  | detaching {id : CacheId} (hRegisters : b.Registers rs rs)
      (hHeld : (b.held id).map Subscription.registration = rs.getLast?) :
      Emptying name rs b ⟨.detaching id .release, []⟩
  | removing {id : CacheId} {cacheName : String} {r : RegistrationId}
      (hRegisters : b.Registers rs rs.dropLast) (hLast : rs.getLast? = some r) :
      Emptying name rs b ⟨.removing id cacheName r .release, []⟩
  | releasing {id : CacheId} (hRegisters : b.Registers rs.dropLast rs.dropLast) :
      Emptying name rs b ⟨.releasing id, []⟩
  | concluding {outcome : Outcome} (hRegisters : b.Registers rs.dropLast rs.dropLast) :
      Emptying name rs b ⟨.free, [.conclude outcome]⟩
  | done (hRegisters : b.Registers rs.dropLast rs.dropLast) : Emptying name rs b ⟨.free, []⟩

section Emptyings

variable {name : String} {rs : List RegistrationId} {b b' : Books} {p p' : Plan}

theorem Tallied.registers (h : Tallied name b rs) : b.Registers rs rs := by
  refine ⟨fun r => ?_, fun r => ?_⟩
  · rw [h.registered]
    split <;> simpa
  · rw [h.bound]
    split
    next hm =>
      have hEntry : b.entry name ≠ none := fun hNone => by
        rw [h.absent hNone] at hm
        cases hm
      simp [hm, hEntry]
    next hNot => simp [hNot]

/-- A cache that was granted no listener has none because the cluster refused it. -/
theorem Tallied.mode_iff (h : Tallied name b rs) {id : CacheId} (hEntry : b.entry name = some id)
    (hMode : b.mode id ≠ .untracked) : rs = [] ↔ b.mode id = .reconciledOnly := by
  have hHeld := h.held id
  rw [if_pos hEntry] at hHeld
  rw [← List.getLast?_eq_none_iff, ← hHeld, Option.map_eq_none_iff]
  cases hSubscription : b.held id with
  | none =>
      rw [b.mode_of_vacant hSubscription] at hMode ⊢
      cases hLapsed : b.lapsed id
      · exact absurd (by simp [hLapsed]) hMode
      · simp
  | some subscription =>
      rw [b.mode_of_held hSubscription]
      cases subscription.shape <;> simp [EventShape.mode]

/-- The others of a list without repetition. -/
theorem mem_dropLast_iff {α : Type} {l : List α} {last : α} (hNodup : l.Nodup)
    (hLast : l.getLast? = some last) (x : α) : x ∈ l.dropLast ↔ x ≠ last ∧ x ∈ l := by
  rcases List.eq_nil_or_concat' l with rfl | ⟨before, final, rfl⟩
  · cases hLast
  · cases List.getLast?_concat.symm.trans hLast
    rw [List.nodup_append_comm, List.singleton_append, List.nodup_cons] at hNodup
    rw [List.dropLast_concat, List.mem_append, List.mem_singleton]
    constructor
    · exact fun hm => ⟨fun hSame => hNodup.1 (hSame ▸ hm), .inl hm⟩
    · rintro ⟨hOther, hm⟩
      exact hm.resolve_right hOther

/-- Without the last of them there is something at the others. -/
theorem ne_none_of_update {α : Type} {f : RegistrationId → Option α} {last : RegistrationId}
    (hNodup : rs.Nodup) (hLast : rs.getLast? = some last) (hAll : ∀ r, f r ≠ none ↔ r ∈ rs)
    (r : RegistrationId) : Function.update f last none r ≠ none ↔ r ∈ rs.dropLast := by
  rw [mem_dropLast_iff hNodup hLast, ← hAll, Function.update_apply]
  split
  next hSame => simp [hSame]
  next hOther => simp [hOther]

theorem Emptying.bears (h : Emptying name rs b p) (hKept : b.faults.loseRemove = false) :
    p.phase.Bears b.faults := by
  cases h with
  | detaching => exact hKept
  | _ => trivial

theorem Emptying.turn (h : Emptying name rs b p) (hNodup : rs.Nodup) (hTurn : Turn b p b' p') :
    Emptying name rs b' p' := by
  cases h with
  | asked hTallied =>
      cases hTurn with
      | destroyNone hEntry =>
          obtain rfl := hTallied.absent hEntry
          exact .done hTallied.registers
      | @takeOut _ id _ hEntry =>
          have hHeld := hTallied.held id
          rw [if_pos hEntry] at hHeld
          exact .sealing { hTallied.registers with } hHeld
  | sealing hRegisters hHeld =>
      cases hTurn with
      | sealNone => exact .detaching hRegisters hHeld
      | sealPending =>
          refine .detaching { hRegisters with } (Eq.trans (congrArg _ ?_) hHeld)
          exact b.held_changeFace_of_same _ _ fun _ => rfl
  | @detaching id hRegisters hHeld =>
      cases hTurn with
      | detachNone hNone =>
          have hVacant : b.held id = none := Option.bind_eq_none_iff.mpr hNone
          rw [hVacant, Option.map_none] at hHeld
          obtain rfl := List.getLast?_eq_none_iff.mp hHeld.symm
          exact .releasing hRegisters
      | @detach _ _ f subscription _ hFace hHolds =>
          have hLast : rs.getLast? = some subscription.registration := by
            rw [← hHeld, Books.held, hFace, Option.bind_some, hHolds, Option.map_some]
          exact .removing ⟨hRegisters.registered, ne_none_of_update hNodup hLast hRegisters.bound⟩
            hLast
  | @removing id cacheName r hRegisters hLast =>
      cases hTurn with
      | remove =>
          exact .releasing ⟨ne_none_of_update hNodup hLast hRegisters.registered, hRegisters.bound⟩
  | releasing hRegisters =>
      cases hTurn with
      | release => exact .concluding { hRegisters with }
  | concluding hRegisters =>
      cases hTurn with
      | conclude => exact .done hRegisters
  | done => cases hTurn

theorem Emptying.beside (h : Emptying name rs b p) (hBeside : b.Beside b') :
    Emptying name rs b' p := by
  have hRegisters : ∀ {registered bound : List RegistrationId}, b.Registers registered bound →
      b'.Registers registered bound := fun hBefore =>
    ⟨fun r => by rw [hBeside.registered]; exact hBefore.registered r,
      fun r => by rw [hBeside.bound]; exact hBefore.bound r⟩
  have hHeld : ∀ id, b'.held id = b.held id := fun id => by rw [Books.held, hBeside.face]; rfl
  cases h with
  | asked hTallied =>
      exact .asked (hTallied.keep (.inl (by rw [hBeside.entry])) hBeside.issued hBeside.registered
        hBeside.bound hHeld)
  | @sealing id hBefore hLast => exact .sealing (hRegisters hBefore) (by rw [hHeld, hLast])
  | @detaching id hBefore hLast => exact .detaching (hRegisters hBefore) (by rw [hHeld, hLast])
  | removing hBefore hLast => exact .removing (hRegisters hBefore) hLast
  | releasing hBefore => exact .releasing (hRegisters hBefore)
  | concluding hBefore => exact .concluding (hRegisters hBefore)
  | done hBefore => exact .done (hRegisters hBefore)

end Emptyings

namespace Traffic

/-- A caller destroys the cache, and all the others are through. -/
structure Destroys (t : Traffic) (name : String) (rs : List RegistrationId) (i : Nat) (p : Plan) :
    Prop where
  todo : ∃ caller, t.callers[i]? = some caller ∧ caller.activity.todo = p.actions
  others : ∀ j caller, j ≠ i → t.callers[j]? = some caller → caller.activity.isOver
  kept : t.client.books.faults.loseRemove = false
  emptying : Emptying name rs t.client.books p

section Destroying

variable {t : Traffic} {name : String} {rs : List RegistrationId} {i : Nat} {p : Plan}
  {hazard : Hazard}

theorem Destroys.advance (h : t.Destroys name rs i p) (hNodup : rs.Nodup) :
    ∃ p', (t.advance i).Destroys name rs i p' := by
  obtain ⟨⟨caller, hCaller, hTodo⟩, hOthers, hKept, hEmptying⟩ := h
  obtain ⟨hLess, -⟩ := List.getElem?_eq_some_iff.mp hCaller
  have hOthers' : ∀ {activity : Activity} j other, j ≠ i →
      (t.callers.set i { caller with activity := activity })[j]? = some other →
      other.activity.isOver := fun j other hOther hPlace =>
    hOthers j other hOther ((List.getElem?_set_ne (Ne.symm hOther)).symm.trans hPlace)
  simp only [Traffic.advance, hCaller]
  by_cases hOver : caller.activity.isOver
  · rw [Client.advance_of_isOver hOver]
    exact ⟨p, ⟨_, List.getElem?_set_self hLess, hTodo⟩, hOthers', hKept, hEmptying⟩
  · by_cases hReady : t.client.activityIsReady caller.activity
    · have hNext : caller.activity.todo ≠ [] := fun hNil => hOver (List.isEmpty_iff.mpr hNil)
      obtain ⟨p', hTodo', hTurn⟩ :=
        t.client.turn_of_ready (hEmptying.bears hKept) hTodo hNext hReady
      exact ⟨p', ⟨_, List.getElem?_set_self hLess, hTodo'⟩, hOthers',
        (congrArg ClusterFaults.loseRemove hTurn.faults).trans hKept, hEmptying.turn hNodup hTurn⟩
    · obtain ⟨hSame, hBooks⟩ := t.client.books_of_waiting hReady
      exact ⟨p, ⟨_, List.getElem?_set_self hLess, hSame.trans hTodo⟩, hOthers',
        (congrArg (fun b => b.faults.loseRemove) hBooks).trans hKept, hBooks ▸ hEmptying⟩

theorem Destroys.meet (h : t.Destroys name rs i p) (hNodup : rs.Nodup)
    (hBegin : ∀ operation, hazard ≠ .call (.begin operation)) :
    ∃ p', (t.meet hazard).Destroys name rs i p' := by
  by_cases hAdvance : ∃ j, hazard = .call (.advance j)
  · obtain ⟨j, rfl⟩ := hAdvance
    by_cases hSame : j = i
    · exact hSame ▸ h.advance hNodup
    · have hStill : t.meet (.call (.advance j)) = t :=
        advance_of_isOver fun caller hCaller => h.others j caller hSame hCaller
      exact ⟨p, by rwa [hStill]⟩
  · obtain ⟨hCallers, hBeside, -⟩ := t.beside_meet hBegin (not_exists.mp hAdvance)
    exact ⟨p, hCallers ▸ h.todo, hCallers ▸ h.others, hBeside.loses.trans h.kept,
      h.emptying.beside hBeside⟩

theorem Destroys.meetAll (h : t.Destroys name rs i p) (hNodup : rs.Nodup) (hazards : List Hazard)
    (hBegin : ∀ operation, .call (.begin operation) ∉ hazards) :
    ∃ p', (t.meetAll hazards).Destroys name rs i p' := by
  induction hazards generalizing t p with
  | nil => exact ⟨p, h⟩
  | cons hazard rest ih =>
      have hOther : ∀ operation, hazard ≠ .call (.begin operation) := fun operation hSame =>
        hBegin operation (hSame ▸ List.mem_cons_self)
      obtain ⟨p', hNext⟩ := h.meet hNodup hOther
      exact ih hNext fun operation hm => hBegin operation (List.mem_cons_of_mem _ hm)

theorem Destroys.hasListeners (h : t.Destroys name rs i p) (hNodup : rs.Nodup) (hQuiet : t.Quiet) :
    t.client.cluster.HasListeners (rs.length - 1) := by
  obtain ⟨caller, hCaller, hTodo⟩ := h.todo
  have hOver := hQuiet caller (List.mem_of_getElem? hCaller)
  have hEmptying := h.emptying
  rw [Plan.eq_idle_of_actions (hTodo.symm.trans (List.isEmpty_iff.mp hOver))] at hEmptying
  cases hEmptying with
  | done hRegisters =>
      rw [← List.length_dropLast]
      exact hRegisters.hasListeners (hNodup.sublist (List.dropLast_sublist rs))

/-- A destroy begins when everybody else is through. -/
theorem Attempted.destroys {granted : List (Nat × RegistrationId)} {visits : Nat → Visit}
    (h : t.Attempted name granted visits) (hQuiet : t.Quiet) :
    (t.begin (.destroy name)).Destroys name (granted.map Prod.snd) t.callers.length
      ⟨.free, [.destroy name]⟩ := by
  refine ⟨⟨_, List.getElem?_concat_length, rfl⟩, fun j caller hOther hCaller => ?_, h.kept,
    .asked h.tallied⟩
  have hLess := (List.getElem?_eq_some_iff.mp hCaller).1
  simp only [Traffic.begin, List.length_append, List.length_singleton] at hLess
  have hBefore := Nat.lt_of_le_of_ne (Nat.le_of_lt_succ hLess) hOther
  exact hQuiet caller (List.mem_of_getElem?
    ((List.getElem?_append_left hBefore).symm.trans hCaller))

end Destroying

end Traffic

/-- A caller has the cache that it asked for. -/
def Caller.Served (caller : Caller) : Prop :=
  caller.activity.isOver ∧ ∃ id, caller.activity.outcome = .handle (some id)

instance : DecidablePred Caller.Served := fun caller =>
  match h : caller.activity.outcome with
  | .handle (some id) =>
    decidable_of_iff caller.activity.isOver ⟨fun hOver => ⟨hOver, id, h⟩, And.left⟩
  | .done | .flag _ | .handle none | .subscribed _ | .unsubscribed _ | .fetched .. | .answered _ |
    .faulted _ => isFalse fun ⟨_, _, h'⟩ => by cases h.symm.trans h'

/-- A fault has stopped the caller of this place. -/
def Traffic.Stopped (t : Traffic) (i : Nat) : Prop :=
  ∃ caller, t.callers[i]? = some caller ∧ caller.Aborted

instance (t : Traffic) (i : Nat) : Decidable (t.Stopped i) :=
  match h : t.callers[i]? with
  | none => isFalse fun ⟨_, h', _⟩ => by cases h.symm.trans h'
  | some caller => decidable_of_iff caller.Aborted
    ⟨fun hAborted => ⟨caller, h, hAborted⟩, fun ⟨_, h', hAborted⟩ => by
      cases h.symm.trans h'
      exact hAborted⟩

/-- The listeners that attempts were granted are registered and bound to the cache, and there are no
others. No attempt was granted two, and all but the last to be granted one have been stopped. -/
structure Traffic.Retains (t : Traffic) (name : String) (granted : List (Nat × RegistrationId)) :
    Prop where
  count : t.client.cluster.HasListeners granted.length
  listeners : ∀ g ∈ granted, ∃ id, t.client.directory[name]? = some id ∧
    t.client.cluster.registrations[g.2]? = some name ∧ t.client.cluster.bindings[g.2]? = some id
  once : (granted.map Prod.fst).Nodup
  stopped : ∀ g ∈ granted.dropLast, t.Stopped g.1

theorem Traffic.Attempted.retains {t : Traffic} {name : String} {configs : ConfigCatalog}
    {granted : List (Nat × RegistrationId)} {visits : Nat → Visit}
    (h : t.Attempted name granted visits) (hVisited : t.Visited configs visits) :
    t.Retains name granted := by
  refine ⟨?_, fun g hm => ?_, h.once, fun g hm => ?_⟩
  · have hListeners := h.tallied.registers.hasListeners h.tallied.nodup
    rwa [List.length_map] at hListeners
  · have hGranted : g.2 ∈ granted.map Prod.snd := List.mem_map_of_mem hm
    have hRegistered := h.tallied.registered g.2
    have hBound := h.tallied.bound g.2
    rw [if_pos hGranted] at hRegistered hBound
    cases hEntry : t.client.books.entry name with
    | none =>
        rw [h.tallied.absent hEntry] at hGranted
        cases hGranted
    | some id => exact ⟨id, hEntry, hRegistered, hBound.trans hEntry⟩
  · obtain ⟨fault, hStage⟩ := h.stopped g hm
    obtain ⟨caller, hCaller, -, hAborted⟩ := hVisited.caller_of_aborted hStage
    exact ⟨caller, hCaller, hAborted⟩

/-- However many attempts are made to open a cache that wants events, and whichever of them faults
stop: every listener that the cluster has granted to one of them stays registered and bound to the
cache. There is one at most if none of the attempts that were granted one was stopped, and once the
cache has been handed out there is none only if the cluster refused it. A destroy takes back one
listener, and the others stay behind. -/
theorem attempts_leave_listeners (configs : ConfigCatalog) (coherence : CoherenceConfig)
    {cluster : Cluster} (hRegistrations : cluster.registrations = ∅)
    (hBindings : cluster.bindings = ∅) (hPlain : cluster.faults.confuseAdd = false)
    (hKept : cluster.faults.loseRemove = false) {name : String} {config : CacheConfig}
    (hConfig : configs.find? name = some config) (hTracked : config.invalidateOnChange = true)
    (hazards : List Traffic.Hazard)
    (hAsks : ∀ operation, .call (.begin operation) ∈ hazards → operation = .getOrCreate name) :
    let t := Traffic.meetAll (.start configs coherence cluster) hazards
    let granted := Traffic.grants (Traffic.trail (.start configs coherence cluster) hazards)
    t.Retains name granted ∧
      ((∀ g ∈ granted, ¬t.Stopped g.1) → granted.length ≤ 1) ∧
      (∀ caller ∈ t.callers, caller.Served → ∃ id cache, t.client.directory[name]? = some id ∧
        t.client.caches[id]? = some cache ∧ cache.setup = .finished ∧
        (granted = [] ↔ cache.mode = .reconciledOnly)) ∧
      (t.Quiet → ∀ more : List Traffic.Hazard, (∀ operation, .call (.begin operation) ∉ more) →
        let t' := (t.begin (.destroy name)).meetAll more
        t'.Quiet → t'.client.cluster.HasListeners (granted.length - 1)) := by
  obtain ⟨visits, hVisited, hAttempted⟩ := Traffic.attempted_of_run configs coherence
    hRegistrations hBindings hPlain hKept hazards hAsks
  have hNodup := hAttempted.tallied.nodup
  have hRetains := hAttempted.retains hVisited
  refine ⟨hRetains, fun hNone => ?_, fun caller hCaller hServed => ?_,
    fun hQuiet more hBegin hOver => ?_⟩
  · by_contra hMore
    obtain ⟨g, hm⟩ := List.exists_mem_of_length_pos (Nat.lt_of_lt_of_eq
      (Nat.sub_pos_of_lt (Nat.lt_of_not_le hMore)) List.length_dropLast.symm)
    exact hNone g (List.dropLast_subset _ hm) (hRetains.stopped g hm)
  · obtain ⟨hOver, handle, hOutcome⟩ := hServed
    obtain ⟨i, hPlace⟩ := List.mem_iff_getElem?.mp hCaller
    have hOperation := (hVisited.asks i caller hPlace).1
    rw [hAttempted.named i] at hOperation
    have hGoesOn : ¬caller.Aborted := by
      rintro ⟨fault, hFaulted⟩
      cases hOutcome.symm.trans hFaulted
    obtain ⟨id, hEntry, hFinished, -⟩ :=
      hVisited.served hConfig hCaller hOperation hOver hGoesOn
    obtain ⟨cache, hKnown, hSetup, hMode⟩ := Client.cache_of_stage hFinished
    have hTracks := (hVisited.sound.tracks name id config hEntry hConfig).trans hTracked
    refine ⟨id, cache, hEntry, hKnown, hSetup, ?_⟩
    rw [← hMode, ← hAttempted.tallied.mode_iff hEntry
      (hAttempted.heeded.finished id hFinished hTracks), List.map_eq_nil_iff]
  · obtain ⟨p, hDestroyed⟩ := (hAttempted.destroys hQuiet).meetAll hNodup more hBegin
    have hListeners := hDestroyed.hasListeners hNodup hOver
    rwa [List.length_map] at hListeners

/-- An attempt is refused a listener and then stopped, since the member breaks down, and another one
succeeds. -/
def Traffic.refusedThenServed : List Traffic.Hazard :=
  .call (.change ⟨#[.create (Cluster.localAddress 0)], ⟨4, 2, 0⟩, true, none⟩) :: .breakDown true ::
    .call (.begin (.getOrCreate "orders")) :: List.replicate 5 (.call (.advance 0)) ++
  .call (.change ⟨#[.create (Cluster.localAddress 0)], ⟨4, 2, 0⟩, false, none⟩) ::
    .breakDown false :: .call (.begin (.getOrCreate "orders")) ::
    List.replicate 9 (.call (.advance 1))

/-- What was stopped before it had a listener leaves none behind. -/
theorem attempts_leave_listeners_refused :
    let t := Traffic.meetAll (.start (.ofList [.ofName "orders"]) .default (.ofSize 1))
      Traffic.refusedThenServed
    let t' := (t.begin (.destroy "orders")).meetAll (List.replicate 6 (.call (.advance 2)))
    t.Stopped 0 ∧ (∃ caller ∈ t.callers, caller.Served) ∧ t.client.cluster.HasListeners 1 ∧
      t'.Quiet ∧ t'.client.cluster.HasListeners 0 := by
  have hAsks : ∀ operation, .call (.begin operation) ∈ Traffic.refusedThenServed →
      operation = .getOrCreate "orders" := by
    intro operation hm
    simpa [Traffic.refusedThenServed] using hm
  have hGranted : Traffic.grants (Traffic.trail (.start (.ofList [.ofName "orders"]) .default
      (.ofSize 1)) Traffic.refusedThenServed) = [(1, "reg-1")] := by decide
  have hEmpty : (Cluster.ofSize 1).registrations = ∅ := rfl
  have hConfig : (ConfigCatalog.ofList [.ofName "orders"]).find? "orders" =
      some (.ofName "orders") := by decide
  obtain ⟨hRetains, -, -, hDestroyed⟩ := attempts_leave_listeners
    (.ofList [.ofName "orders"]) .default hEmpty rfl rfl rfl hConfig rfl Traffic.refusedThenServed
    hAsks
  rw [hGranted] at hRetains hDestroyed
  have hQuiet : ((Traffic.meetAll (.start (.ofList [.ofName "orders"]) .default (.ofSize 1))
      Traffic.refusedThenServed).begin (.destroy "orders") |>.meetAll
        (List.replicate 6 (.call (.advance 2)))).Quiet := by decide
  exact ⟨by decide, by decide, hRetains.count, hQuiet, hDestroyed (by decide) _ (by simp) hQuiet⟩

/-- An attempt is stopped after it was granted a listener, since the member breaks down, and another
one succeeds. -/
def Traffic.stoppedThenServed : List Traffic.Hazard :=
  .call (.change ⟨#[.create (Cluster.localAddress 0)], ⟨4, 2, 0⟩, false, none⟩) ::
    .breakDown true :: .call (.begin (.getOrCreate "orders")) ::
    List.replicate 5 (.call (.advance 0)) ++
  .breakDown false :: .call (.begin (.getOrCreate "orders")) ::
    List.replicate 9 (.call (.advance 1))

/-- A setup that is stopped leaves its listener behind: the next one asks for another, and when the
cache has been destroyed the first is still registered, and bound to it. -/
theorem listener_outlives_attempt :
    let t := Traffic.meetAll (.start (.ofList [.ofName "orders"]) .default (.ofSize 1))
      Traffic.stoppedThenServed
    let t' := (t.begin (.destroy "orders")).meetAll (List.replicate 6 (.call (.advance 2)))
    t.Stopped 0 ∧ (∃ caller ∈ t.callers, caller.Served) ∧ t.client.cluster.HasListeners 2 ∧
      t'.Quiet ∧ t'.client.directory.toList = [] ∧
      t'.client.cluster.registrations.toList = [("reg-1", "orders")] ∧
      t'.client.cluster.bindings.toList = [("reg-1", 0)] := by
  decide

end NearCache
