import NearCache.Proofs.Client.Turn
import NearCache.Proofs.History

/-!
Traffic of a client: callers that ask for caches, destroy them, renew all listeners or shut the
client down. Their activities, the workers, events and changes of the cluster take turns in any
order, so every schedule is one of these runs.
-/

namespace NearCache

/-- What a caller asked for, and how far it has come. -/
structure Caller where
  operation : Operation
  activity : Activity

/-- The cache that an action takes the listener from, or that it asks one for. -/
def Action.listener? : Action → Option CacheId
  | .unsubscribe id | .subscribe id _ | .awaitListener id _ _ _ => some id
  | _ => none

def Action.startsWorker : Action → Bool
  | .startWorker => true
  | _ => false

namespace Caller

/-- The cache whose listener a caller renews, until the cluster has answered the request for the new
one. -/
def renewing? (c : Caller) : Option CacheId :=
  if c.operation = .resubscribeAll then c.activity.todo.findSome? Action.listener? else none

/-- A caller is about to start the worker for a cache whose listener it has renewed. -/
def Restarts (c : Caller) : Prop :=
  c.operation = .resubscribeAll ∧ c.activity.todo.head?.any Action.startsWorker

instance (c : Caller) : Decidable c.Restarts :=
  inferInstanceAs
    (Decidable (c.operation = .resubscribeAll ∧ c.activity.todo.head?.any Action.startsWorker))

end Caller

/-- What of a cluster changes while its clients use it. -/
structure Conditions where
  members : Array Member
  version : ServerVersion
  refuseListeners : Bool
  listenerDelay : Option Nat

namespace Cluster

/-- The cluster once its members, its version and its treatment of listener requests changed. -/
def change (c : Cluster) (conditions : Conditions) : Cluster :=
  { c with
    members := conditions.members
    version := conditions.version
    faults.refuseListeners := conditions.refuseListeners
    faults.listenerDelay := conditions.listenerDelay }

end Cluster

/-- A client and all that its callers have begun. -/
structure Traffic where
  client : Client
  callers : List Caller

namespace Traffic

inductive Call where
  | begin (operation : Operation)
  /-- The caller of this place goes on, or finds that it has to wait. -/
  | advance (i : Nat)
  | work (worker : WorkerId)
  | wait (millis : Nat)
  | change (conditions : Conditions)
  | deliver (name : String) (event : Event)

def begin (t : Traffic) (operation : Operation) : Traffic :=
  { t with callers := t.callers ++ [⟨operation, ⟨t.callers.length, operation.todo, .done⟩⟩] }

def advance (t : Traffic) (i : Nat) : Traffic :=
  match t.callers[i]? with
  | none => t
  | some caller =>
    let done := (t.client.advance caller.activity).result
    ⟨done.1, t.callers.set i { caller with activity := done.2 }⟩

def withClient (t : Traffic) (s : Client) : Traffic :=
  { t with client := s }

def perform (t : Traffic) : Call → Traffic
  | .begin operation => t.begin operation
  | .advance i => t.advance i
  | .work worker =>
    if t.client.workerIsReady worker then t.withClient (t.client.stepWorker worker).1 else t
  | .wait millis => t.withClient { t.client with now := t.client.now + millis }
  | .change conditions => t.withClient (t.client.withCluster (t.client.cluster.change conditions))
  | .deliver name event => t.withClient (t.client.deliver name event).1

/-- A client without caches, before any call. -/
def start (configs : ConfigCatalog) (coherence : CoherenceConfig) (cluster : Cluster) : Traffic :=
  ⟨.create configs coherence cluster, []⟩

def run : Traffic → List Call → Traffic :=
  History.run perform

def steps : Traffic → List Call → List (Traffic × Call) :=
  History.steps perform

/-- Every caller has what it asked for. -/
def Quiet (t : Traffic) : Prop :=
  ∀ caller ∈ t.callers, caller.activity.isOver

instance (t : Traffic) : Decidable t.Quiet :=
  inferInstanceAs (Decidable (∀ caller ∈ t.callers, caller.activity.isOver))

/-- No listeners are being renewed. -/
def Renewed (t : Traffic) : Prop :=
  ∀ caller ∈ t.callers, caller.operation = .resubscribeAll → caller.activity.isOver

instance (t : Traffic) : Decidable t.Renewed :=
  inferInstanceAs
    (Decidable (∀ caller ∈ t.callers, caller.operation = .resubscribeAll → caller.activity.isOver))

/-- A caller begins only when all the others have what they asked for. -/
def InTurn : Traffic × Call → Prop
  | (t, .begin _) => t.Quiet
  | _ => True

instance : DecidablePred InTurn := fun
  | (t, .begin _) => inferInstanceAs (Decidable t.Quiet)
  | (_, .advance _) | (_, .work _) | (_, .wait _) | (_, .change _) | (_, .deliver _ _) =>
    inferInstanceAs (Decidable True)

/-- Listeners are renewed only when nothing else is going on, and nothing begins meanwhile. Other
operations overlap as they like. -/
def RenewsAlone : Traffic × Call → Prop
  | (t, .begin .resubscribeAll) => t.Quiet
  | (t, .begin _) => t.Renewed
  | _ => True

/-- The caches whose listeners are being renewed, once for each caller that does so. -/
def renewing (t : Traffic) : List CacheId :=
  t.callers.filterMap Caller.renewing?

/-- Listeners are renewed only of caches that are in the directory and set up, of none by two callers
at a time, and no worker is started for them when the client is closed and its directory empty. Else
renewals overlap with each other and with all other operations as they like. -/
structure RenewsApart (t : Traffic) : Prop where
  listed : ∀ id ∈ t.renewing, id ∈ t.client.registered
  finished : ∀ id ∈ t.renewing, (t.client.caches[id]?).map Cache.setup = some .finished
  once : t.renewing.Nodup
  staffed : t.client.closed = true → (∃ caller ∈ t.callers, caller.Restarts) →
    t.client.registered ≠ []

instance (t : Traffic) : Decidable t.RenewsApart :=
  decidable_of_iff
    ((∀ id ∈ t.renewing, id ∈ t.client.registered) ∧
      (∀ id ∈ t.renewing, (t.client.caches[id]?).map Cache.setup = some .finished) ∧
      t.renewing.Nodup ∧
      (t.client.closed = true → (∃ caller ∈ t.callers, caller.Restarts) →
        t.client.registered ≠ []))
    ⟨fun ⟨hListed, hFinished, hOnce, hStaffed⟩ => ⟨hListed, hFinished, hOnce, hStaffed⟩,
      fun ⟨hListed, hFinished, hOnce, hStaffed⟩ => ⟨hListed, hFinished, hOnce, hStaffed⟩⟩

section Callers

variable {t : Traffic} {i : Nat} {caller : Caller}

/-- A caller goes on in its own turns only. -/
theorem caller_perform (hCaller : t.callers[i]? = some caller) (call : Call) :
    ∃ activity, (t.perform call).callers[i]? = some { caller with activity := activity } ∧
      (activity = caller.activity ∨
        (call = .advance i ∧ activity = (t.client.advance caller.activity).result.2)) := by
  obtain ⟨hLess, -⟩ := List.getElem?_eq_some_iff.mp hCaller
  cases call with
  | begin operation =>
      exact ⟨_, (List.getElem?_append_left hLess).trans hCaller, .inl rfl⟩
  | advance j =>
      simp only [perform, advance]
      split
      · exact ⟨_, hCaller, .inl rfl⟩
      next other hOther =>
        by_cases hSame : j = i
        · subst hSame
          cases hOther.symm.trans hCaller
          exact ⟨_, List.getElem?_set_self hLess, .inr ⟨rfl, rfl⟩⟩
        · exact ⟨_, (List.getElem?_set_ne hSame).trans hCaller, .inl rfl⟩
  | work worker =>
      simp only [perform]
      split <;> exact ⟨_, hCaller, .inl rfl⟩
  | wait millis => exact ⟨_, hCaller, .inl rfl⟩
  | change conditions => exact ⟨_, hCaller, .inl rfl⟩
  | deliver name event => exact ⟨_, hCaller, .inl rfl⟩

/-- Nothing comes of a caller that is through. -/
theorem advance_of_isOver
    (hOver : ∀ caller, t.callers[i]? = some caller → caller.activity.isOver) : t.advance i = t := by
  unfold advance
  cases hCaller : t.callers[i]? with
  | none => rfl
  | some caller =>
      obtain ⟨hLess, rfl⟩ := List.getElem?_eq_some_iff.mp hCaller
      dsimp only
      rw [Client.advance_of_isOver (hOver _ hCaller)]
      exact congrArg (Traffic.mk t.client) (List.set_getElem_self hLess)

/-- A caller that was not there before has just begun. -/
theorem begun_of_perform {call : Call} (hCaller : (t.perform call).callers[i]? = some caller)
    (hNone : t.callers[i]? = none) :
    call = .begin caller.operation ∧ caller.activity.todo = caller.operation.todo ∧
      i = t.callers.length := by
  have hBeyond : t.callers.length ≤ i := List.getElem?_eq_none_iff.mp hNone
  cases call with
  | begin operation =>
      have hLess := (List.getElem?_eq_some_iff.mp hCaller).1
      simp only [perform, begin, List.length_append, List.length_singleton] at hLess
      obtain rfl : i = t.callers.length := Nat.le_antisymm (Nat.le_of_lt_succ hLess) hBeyond
      cases List.getElem?_concat_length.symm.trans hCaller
      exact ⟨rfl, rfl, rfl⟩
  | advance j =>
      simp only [perform, advance] at hCaller
      split at hCaller
      · cases hNone.symm.trans hCaller
      · have hLess := (List.getElem?_eq_some_iff.mp hCaller).1
        rw [List.length_set] at hLess
        exact absurd hLess (Nat.not_lt_of_le hBeyond)
  | work worker =>
      simp only [perform] at hCaller
      split at hCaller <;> cases hNone.symm.trans hCaller
  | wait millis => cases hNone.symm.trans hCaller
  | change conditions => cases hNone.symm.trans hCaller
  | deliver name event => cases hNone.symm.trans hCaller

/-- Whoever calls has begun in the course of the run. -/
theorem begun_of_run {configs : ConfigCatalog} {coherence : CoherenceConfig} {cluster : Cluster}
    {calls : List Call}
    (hCaller : (run (.start configs coherence cluster) calls).callers[i]? = some caller) :
    .begin caller.operation ∈ calls := by
  induction calls using List.reverseRecOn generalizing caller with
  | nil => cases (List.getElem?_nil (i := i)).symm.trans hCaller
  | append_singleton calls call ih =>
      rw [run, History.run_concat, ← run] at hCaller
      cases hFormer : (run (.start configs coherence cluster) calls).callers[i]? with
      | none =>
          obtain ⟨rfl, -, -⟩ := begun_of_perform hCaller hFormer
          exact List.mem_append_right _ (List.mem_singleton_self _)
      | some former =>
          obtain ⟨activity, hNow, -⟩ := caller_perform hFormer call
          have hBegun := ih hFormer
          cases hNow.symm.trans hCaller
          exact List.mem_append_left _ hBegun

end Callers

theorem Quiet.renewed {t : Traffic} (h : t.Quiet) : t.Renewed :=
  fun caller hm _ => h caller hm

theorem InTurn.renewsAlone {step : Traffic × Call} (h : InTurn step) : RenewsAlone step := by
  obtain ⟨t, call⟩ := step
  cases call with
  | begin operation =>
      cases operation with
      | resubscribeAll => exact h
      | getOrCreate name => exact Quiet.renewed h
      | destroy name => exact Quiet.renewed h
      | shutdownAll => exact Quiet.renewed h
  | _ => trivial

/-- Renewals are apart where there are none. -/
theorem renewsApart_of_run {configs : ConfigCatalog} {coherence : CoherenceConfig}
    {cluster : Cluster} {calls : List Call}
    (hNone : ∀ operation, .begin operation ∈ calls → operation ≠ .resubscribeAll) :
    (run (.start configs coherence cluster) calls).RenewsApart := by
  have hOther : ∀ caller ∈ (run (.start configs coherence cluster) calls).callers,
      caller.operation ≠ .resubscribeAll := by
    intro caller hm
    obtain ⟨i, hCaller⟩ := List.mem_iff_getElem?.mp hm
    exact hNone _ (begun_of_run hCaller)
  have hRenewing : (run (.start configs coherence cluster) calls).renewing = [] :=
    List.filterMap_eq_nil_iff.mpr fun caller hm => if_neg (hOther caller hm)
  constructor
  · simp [hRenewing]
  · simp [hRenewing]
  · simp [hRenewing]
  · rintro - ⟨caller, hm, hRestarts, -⟩
    exact absurd hRestarts (hOther caller hm)

/-- Nothing overlaps with a renewal of listeners where there is none. -/
theorem renewsApart_of_calls {configs : ConfigCatalog} {coherence : CoherenceConfig}
    {cluster : Cluster} {calls : List Call}
    (hNone : ∀ operation, .begin operation ∈ calls → operation ≠ .resubscribeAll) :
    ∀ step ∈ steps (.start configs coherence cluster) calls, step.1.RenewsApart := by
  induction calls using List.reverseRecOn with
  | nil => rintro step ⟨⟩
  | append_singleton calls call ih =>
      have hBefore := fun operation hm => hNone operation (List.mem_append_left _ hm)
      rw [steps, History.steps_concat, ← steps]
      intro step hm
      rcases List.mem_append.mp hm with hm | hm
      · exact ih hBefore step hm
      · rw [List.mem_singleton.mp hm]
        exact renewsApart_of_run hBefore

end Traffic

end NearCache
