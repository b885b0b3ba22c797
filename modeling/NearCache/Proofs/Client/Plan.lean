import NearCache.Proofs.Client.Books

/-!
What one turn of an activity does to the books. What an activity still has to do is read as a plan:
the phase that it is in, and the chores that come after it. A turn takes a plan and the books to the
next ones, and the turns listed here are all that there are as long as no member breaks down and the
cluster answers listener requests.
-/

namespace NearCache

/-- What an activity does between two phases. -/
inductive Chore
  | destroy (name : String)
  | destroyAll
  | stopWorker
  | awaitWorker (w : WorkerId) (due : Nat)
  | resubscribe (id : CacheId)
  | conclude (outcome : Outcome)

def Chore.action : Chore → Action
  | .destroy name => .destroy name
  | .destroyAll => .destroyAll
  | .stopWorker => .stopWorker
  | .awaitWorker w due => .awaitWorker w due
  | .resubscribe id => .resubscribe id
  | .conclude outcome => .conclude outcome

/-- Why a listener is registered: for a cache that is set up and then handed out under a name, or in
place of a listener that was lost. -/
inductive Errand
  | setup (name : String)
  | renewal (seeds : Bool)

/-- Why a listener is removed: because its cache is torn down, or to be renewed. -/
inductive Sequel
  | release
  | renewal (seeds : Bool)

/-- What an activity is in the middle of. -/
inductive Phase
  | free
  | opening (name : String)
  | entering (name : String) (id : CacheId)
  | requesting (id : CacheId) (errand : Errand)
  | awaiting (id : CacheId) (shape : EventShape) (due : Nat) (errand : Errand)
  | seeding (id : CacheId) (limit : Duration) (errand : Errand)
  | collecting (id : CacheId) (round : { r : Round // r.Steady }) (errand : Errand)
  | starting (id : CacheId) (errand : Errand)
  | finishing (name : String) (id : CacheId)
  | handing (name : String) (id : CacheId)
  | sealing (id : CacheId)
  | detaching (id : CacheId) (sequel : Sequel)
  | removing (id : CacheId) (name : String) (registration : RegistrationId) (sequel : Sequel)
  | releasing (id : CacheId)
  | closing
  | renewing

namespace Errand

def seeds : Errand → Bool
  | .setup _ => true
  | .renewal seeds => seeds

def rest (id : CacheId) : Errand → List Action
  | .setup name => [.finishSetup id, .handOut name id]
  | .renewal _ => []

/-- The phase once the cache has a listener, or has got over having none. -/
def next (id : CacheId) : Errand → Phase
  | .setup name => .finishing name id
  | .renewal _ => .free

/-- The phase in which a cache that takes part in reconciliation is settled. -/
def settling (id : CacheId) (limit : Duration) (errand : Errand) : Phase :=
  if errand.seeds then .seeding id limit errand else .starting id errand

/-- The phase after the cluster has registered a listener. -/
def afterGrant (id : CacheId) (limit : Duration) (errand : Errand) : EventShape → Phase
  | .repairable => errand.settling id limit
  | .legacy => errand.next id

end Errand

namespace Sequel

def rest (id : CacheId) : Sequel → List Action
  | .release => [.release id, .conclude (.flag true)]
  | .renewal seeds => [.subscribe id (.settle seeds)]

/-- The phase once the listener is gone. -/
def next (id : CacheId) : Sequel → Phase
  | .release => .releasing id
  | .renewal seeds => .requesting id (.renewal seeds)

end Sequel

def Phase.actions : Phase → List Action
  | .free => []
  | .opening name => [.findOrCreate name]
  | .entering name id => [.enterSetup id, .handOut name id]
  | .requesting id errand => .subscribe id (.settle errand.seeds) :: errand.rest id
  | .awaiting id shape due errand =>
    .awaitListener id shape due (.settle errand.seeds) :: errand.rest id
  | .seeding id limit errand => .seed id limit :: .startWorker :: errand.rest id
  | .collecting id round errand => .awaitSeed id round.1 :: .startWorker :: errand.rest id
  | .starting id errand => .startWorker :: errand.rest id
  | .finishing name id => [.finishSetup id, .handOut name id]
  | .handing name id => [.handOut name id]
  | .sealing id => [.sealSetup id, .unsubscribe id, .release id, .conclude (.flag true)]
  | .detaching id sequel => .unsubscribe id :: sequel.rest id
  | .removing id name registration sequel =>
    .awaitRemoval (.removeListener name registration) false :: sequel.rest id
  | .releasing id => [.release id, .conclude (.flag true)]
  | .closing => Action.shutdown
  | .renewing => Action.resubscribeEverything

/-- What an activity still has to do: a phase to get through, then chores. -/
structure Plan where
  phase : Phase
  tail : List Chore

namespace Plan

def actions (p : Plan) : List Action :=
  p.phase.actions ++ p.tail.map Chore.action

/-- Nothing is left to do. -/
def idle : Plan :=
  ⟨.free, []⟩

end Plan

/-- What a caller asks of a client. -/
inductive Operation
  | getOrCreate (name : String)
  | destroy (name : String)
  | resubscribeAll
  | shutdownAll
deriving DecidableEq

namespace Operation

def todo : Operation → List Action
  | .getOrCreate name => Action.getOrCreate name
  | .destroy name => [.destroy name]
  | .resubscribeAll => Action.resubscribeEverything
  | .shutdownAll => Action.shutdown

/-- The plan with which an operation begins. -/
def plan : Operation → Plan
  | .getOrCreate name => ⟨.opening name, []⟩
  | .destroy name => ⟨.free, [.destroy name]⟩
  | .resubscribeAll => ⟨.renewing, []⟩
  | .shutdownAll => ⟨.closing, []⟩

theorem actions_plan (operation : Operation) : operation.plan.actions = operation.todo := by
  cases operation <;> rfl

end Operation

/-- The face of a new cache. -/
def Face.fresh (name : String) (invalidates : Bool) : Face :=
  ⟨name, invalidates, none, false, .pending⟩

/-- One turn of an activity: the books and the plan before it, and those after it. -/
inductive Turn (b : Books) : Plan → Books → Plan → Prop
  -- A cache is found or created, and set up by the first caller that gets there.
  | decline {name tail} : Turn b ⟨.opening name, tail⟩ b ⟨.free, tail⟩
  | find {name id tail} (hOpen : b.closed = false) (hEntry : b.entry name = some id) :
      Turn b ⟨.opening name, tail⟩ b ⟨.entering name id, tail⟩
  | create {name invalidates tail} (hOpen : b.closed = false) (hEntry : b.entry name = none) :
      Turn b ⟨.opening name, tail⟩ (b.add (.fresh name invalidates))
        ⟨.entering name b.nextCache, tail⟩
  | pass {name id tail} (hSettled : ∀ f, b.face id = some f → f.setup = .finished) :
      Turn b ⟨.entering name id, tail⟩ b ⟨.handing name id, tail⟩
  | enter {name id f tail} (hFace : b.face id = some f) (hPending : f.setup = .pending) :
      Turn b ⟨.entering name id, tail⟩ (b.changeFace id fun f => { f with setup := .running })
        ⟨if f.invalidates then .requesting id (.setup name) else .finishing name id, tail⟩
  | finish {name id tail} :
      Turn b ⟨.finishing name id, tail⟩ (b.changeFace id fun f => { f with setup := .finished })
        ⟨.handing name id, tail⟩
  | handOut {name id tail} (hOpen : b.closed = false) :
      Turn b ⟨.handing name id, tail⟩ b ⟨.free, tail⟩
  | retract {name id outcome tail} (hClosed : b.closed = true) :
      Turn b ⟨.handing name id, tail⟩ b
        ⟨.free, .stopWorker :: .destroy name :: .conclude outcome :: tail⟩
  -- A listener is asked for, and granted or refused.
  | request {id errand shape due tail} (hKnown : (b.face id).isSome) :
      Turn b ⟨.requesting id errand, tail⟩ b ⟨.awaiting id shape due errand, tail⟩
  | requestNone {id errand tail} (hNone : b.face id = none) :
      Turn b ⟨.requesting id errand, tail⟩ b ⟨errand.next id, tail⟩
  | grant {id shape due errand f limit tail} (hFace : b.face id = some f)
      (hGranted : b.faults.refuseListeners = false) :
      Turn b ⟨.awaiting id shape due errand, tail⟩ (b.install id f shape)
        ⟨errand.afterGrant id limit shape, tail⟩
  | refuse {id shape due errand limit tail} (hKnown : (b.face id).isSome)
      (hRefused : b.faults.refuseListeners = true) :
      Turn b ⟨.awaiting id shape due errand, tail⟩
        (b.changeFace id fun f => { f with pushUnavailable := true })
        ⟨errand.settling id limit, tail⟩
  | awaitNone {id shape due errand tail} (hNone : b.face id = none) :
      Turn b ⟨.awaiting id shape due errand, tail⟩ b ⟨errand.next id, tail⟩
  -- A cache is seeded, and the worker started.
  | seed {id limit round errand tail} :
      Turn b ⟨.seeding id limit errand, tail⟩ b ⟨.collecting id round errand, tail⟩
  | seedNone {id limit errand tail} :
      Turn b ⟨.seeding id limit errand, tail⟩ b ⟨.starting id errand, tail⟩
  | collect {id round round' errand tail} :
      Turn b ⟨.collecting id round errand, tail⟩ b ⟨.collecting id round' errand, tail⟩
  | collected {id round errand tail} :
      Turn b ⟨.collecting id round errand, tail⟩ b ⟨.starting id errand, tail⟩
  | staffed {id errand w tail} (hRunning : b.running = some w) (hAlive : (b.worker w).isSome) :
      Turn b ⟨.starting id errand, tail⟩ b ⟨errand.next id, tail⟩
  | hire {id errand tail} (hVacant : ∀ w, b.running = some w → b.worker w = none) :
      Turn b ⟨.starting id errand, tail⟩ b.hire ⟨errand.next id, tail⟩
  -- A cache is torn down, or its listener renewed.
  | sealNone {id tail} (hSettled : ∀ f, b.face id = some f → f.setup = .finished) :
      Turn b ⟨.sealing id, tail⟩ b ⟨.detaching id .release, tail⟩
  | sealPending {id f tail} (hFace : b.face id = some f) (hPending : f.setup = .pending) :
      Turn b ⟨.sealing id, tail⟩ (b.changeFace id fun f => { f with setup := .finished })
        ⟨.detaching id .release, tail⟩
  | detachNone {id sequel tail} (hNone : ∀ f, b.face id = some f → f.subscription = none) :
      Turn b ⟨.detaching id sequel, tail⟩ b ⟨sequel.next id, tail⟩
  | detach {id sequel f subscription tail} (hFace : b.face id = some f)
      (hHeld : f.subscription = some subscription) :
      Turn b ⟨.detaching id sequel, tail⟩ (b.detach id subscription)
        ⟨.removing id subscription.cacheName subscription.registration sequel, tail⟩
  | remove {id name registration sequel tail} :
      Turn b ⟨.removing id name registration sequel, tail⟩ (b.strike registration)
        ⟨sequel.next id, tail⟩
  | release {id tail} :
      Turn b ⟨.releasing id, tail⟩ (b.changeFace id fun f => { f with pushUnavailable := false })
        ⟨.free, .conclude (.flag true) :: tail⟩
  -- The client is closed, or all its listeners renewed.
  | close {tail} :
      Turn b ⟨.closing, tail⟩ { b with closed := true }
        ⟨.free, .stopWorker :: .destroyAll :: .stopWorker :: .conclude .done :: tail⟩
  | renewAll {ids : List CacheId} {tail} (hIds : ∀ id ∈ ids, ∃ name, b.entry name = some id) :
      Turn b ⟨.renewing, tail⟩ b ⟨.free, ids.map Chore.resubscribe ++ .conclude .done :: tail⟩
  -- Chores.
  | destroyAll {names : List String} {tail}
      (hNames : ∀ name id, b.entry name = some id → name ∈ names) :
      Turn b ⟨.free, .destroyAll :: tail⟩ b ⟨.free, names.map Chore.destroy ++ tail⟩
  | destroyNone {name tail} (hEntry : b.entry name = none) :
      Turn b ⟨.free, .destroy name :: tail⟩ b ⟨.free, tail⟩
  | takeOut {name id tail} (hEntry : b.entry name = some id) :
      Turn b ⟨.free, .destroy name :: tail⟩ (b.takeOut name) ⟨.sealing id, tail⟩
  | stopNone {tail} (hNone : b.running = none) :
      Turn b ⟨.free, .stopWorker :: tail⟩ b ⟨.free, tail⟩
  | stop {w due tail} (hRunning : b.running = some w) :
      Turn b ⟨.free, .stopWorker :: tail⟩ (b.dismiss w) ⟨.free, .awaitWorker w due :: tail⟩
  | reap {w due tail} : Turn b ⟨.free, .awaitWorker w due :: tail⟩ (b.retire w) ⟨.free, tail⟩
  | renewNone {id tail} (hNone : ∀ f, b.face id = some f → f.invalidates = false) :
      Turn b ⟨.free, .resubscribe id :: tail⟩ b ⟨.free, tail⟩
  | renew {id f tail} (hFace : b.face id = some f) (hTracked : f.invalidates = true) :
      Turn b ⟨.free, .resubscribe id :: tail⟩ b ⟨.detaching id (.renewal !f.isCoherent), tail⟩
  | conclude {outcome tail} : Turn b ⟨.free, .conclude outcome :: tail⟩ b ⟨.free, tail⟩

/-- What the plan at one place keeps, and those at the others keep because they stay the same. -/
theorem kept_of_others {P : Plan → Prop} {plans plans' : Nat → Plan} {i j : Nat}
    (hOthers : ∀ j, j ≠ i → plans' j = plans j) (hSelf : P (plans i) → P (plans' i))
    (h : P (plans j)) : P (plans' j) := by
  by_cases hSame : j = i
  · subst hSame
    exact hSelf h
  · rw [hOthers j hSame]
    exact h

/-- No member breaks down, and what the cluster makes of a listener request comes back. -/
def ClusterFaults.Fair (f : ClusterFaults) : Prop :=
  f.breakDown = false ∧ f.confuseAdd = false ∧ f.loseRemove = false

/-- An activity gets through a phase in spite of these faults. -/
def Phase.Bears (f : ClusterFaults) : Phase → Prop
  | .awaiting .. => f.confuseAdd = false
  | .seeding .. => f.breakDown = false
  | .detaching .. => f.loseRemove = false
  | _ => True

theorem ClusterFaults.Fair.bears {f : ClusterFaults} (h : f.Fair) (phase : Phase) :
    phase.Bears f := by
  cases phase with
  | awaiting => exact h.2.1
  | seeding => exact h.1
  | detaching => exact h.2.2
  | _ => trivial

end NearCache
