import NearCache.Client.Action
import NearCache.Client.Worker

/-!
Carrying out one action. An action is done, and may leave further ones to do in its place; or it has
to wait; or a fault stops the activity that it belongs to.
-/

namespace NearCache

/-- What became of an action. -/
inductive Progress
  /-- It has to wait, as the action that is left of it. -/
  | waiting (s : Client) (action : Action)
  /-- It is done. What it leaves to do comes first now, and the outcome may be settled anew. -/
  | moved (s : Client) (todo : List Action) (outcome : Option Outcome)
  /-- A fault stopped it. -/
  | stopped (s : Client) (fault : Fault)

namespace Client

/-- Whether an activity may enter the setup of a cache now: it is not being set up, and no other
activity came first. -/
def mayEnter (cache : Cache) (me : ActivityId) : Bool :=
  cache.setup = .pending && (cache.waiting.head?.all (· = me))

/-- The cache with one more activity waiting for its setup. -/
def enqueue (cache : Cache) (me : ActivityId) : Cache :=
  if cache.waiting.contains me then cache else { cache with waiting := cache.waiting ++ [me] }

/-- The cache while its setup runs. -/
def beginSetup (me : ActivityId) (cache : Cache) : Cache :=
  { cache with setup := .running, waiting := cache.waiting.erase me }

/-- The cache once its setup is over, for whatever reason there will be no other. -/
def endSetup (cache : Cache) : Cache :=
  { cache with setup := .finished, waiting := [] }

/-- The cache after its setup was stopped by a fault. The next activity may try. -/
def abandonSetup (cache : Cache) : Cache :=
  { cache with setup := .pending }

/-- Finds the cache of a name, or creates it. -/
def openCache (s : Client) (name : String) : Progress :=
  if s.closed then .moved s [] (some (.handle none))
  else
    match s.configs.find? name with
    | none => .moved s [] (some (.handle none))
    | some config =>
      match s.directory[name]? with
      | some id => .moved s [.enterSetup id, .handOut name id] none
      | none =>
        let added := s.addCache (.create name config s.coherence)
        .moved { added.1 with directory := added.1.directory.insert name added.2 }
          [.enterSetup added.2, .handOut name added.2] none

/-- What the setup of a cache consists of. -/
def setupActions (cache : Cache) (id : CacheId) : List Action :=
  if cache.config.invalidateOnChange then [.subscribe id (.settle true), .finishSetup id]
  else [.finishSetup id]

/-- Sets a cache up, unless it is. -/
def enterSetup (s : Client) (me : ActivityId) (id : CacheId) : Progress :=
  match s.caches[id]? with
  | none => .moved s [] none
  | some cache =>
    if cache.setup = .finished then .moved s [] none
    else .moved (s.modifyCache id (beginSetup me)) (setupActions cache id) none

/-- Makes sure that there will be no setup of a cache any more. -/
def sealSetup (s : Client) (id : CacheId) : Progress :=
  match s.caches[id]? with
  | none => .moved s [] none
  | some cache =>
    if cache.setup = .finished then .moved s [] none
    else .moved (s.modifyCache id endSetup) [] none

/-- Hands out a cache, unless the client was closed. Then it is torn down again. -/
def handOut (s : Client) (name : String) (id : CacheId) : Progress :=
  if s.closed then .moved s [.stopWorker, .destroy name, .conclude (.handle none)] none
  else .moved s [] (some (.handle (some id)))

/-- Asks the cluster to register a listener, of the shape that its version allows. -/
def subscribe (s : Client) (id : CacheId) (followUp : FollowUp) : Progress :=
  match s.caches[id]? with
  | none => .moved s [] none
  | some cache =>
    let shape := EventShape.negotiate s.cluster.version
    let request := Request.addListener cache.name shape true
    .moved (s.withCluster (s.cluster.receive request))
      [.awaitListener id shape (s.now + s.cluster.delayOf request) followUp] none

/-- The result of an attempt to register a listener, given what the cluster answered. -/
def listenerResult (cache : Cache) (shape : EventShape) (request : Request) :
    Except Error Response → Except Error Subscription
  | .ok (.listenerAdded registration) => .ok ⟨cache.name, registration, shape⟩
  | .ok other => .error (.cluster (.unexpectedResponse request.kind other.kind))
  | .error e => .error (.cluster (.subscriptionFailed cache.name e.message))

/-- Holds and binds a new subscription. A cache that gets events without sequence numbers drops all
that it knows. -/
def install (s : Client) (id : CacheId) (subscription : Subscription) : Client :=
  let s := s.modifyCache id fun cache =>
    let cache := cache.installSubscription subscription
    match subscription.shape with
    | .legacy => cache.downgrade
    | .repairable => cache
  s.withCluster (s.cluster.bind subscription.registration id)

/-- What settles a cache after an attempt to register its listener. One that takes part in
reconciliation needs the worker, and seeding where asked for. -/
def settleActions (s : Client) (id : CacheId) (seed : Bool) : List Action :=
  if seed then [.seed id s.coherence.memberTimeout, .startWorker] else [.startWorker]

/-- Takes the answer to a registration. -/
def awaitListener (s : Client) (id : CacheId) (shape : EventShape) (followUp : FollowUp) : Progress :=
  match s.caches[id]? with
  | none => .moved s [] none
  | some cache =>
    let request := Request.addListener cache.name shape true
    let answer := s.cluster.answer request
    let s := s.withCluster answer.1
    let result := listenerResult cache shape request answer.2
    let s := match result with
      | .ok subscription => s.install id subscription
      | .error _ => s
    match followUp, result with
    | .report, _ => .moved s [] (some (.subscribed (result.map Subscription.shape)))
    | .settle seed, .error _ =>
      .moved (s.modifyCache id Cache.markPushUnavailable) (s.settleActions id seed) none
    | .settle seed, .ok ⟨_, _, .repairable⟩ => .moved s (s.settleActions id seed) none
    | .settle _, .ok ⟨_, _, .legacy⟩ => .moved s [] none

/-- Unbinds the listener of a cache and asks the cluster to remove it. No event reaches the cache
from here on. -/
def unsubscribe (s : Client) (id : CacheId) : Progress :=
  match (s.caches[id]?).bind Cache.subscription with
  | none => .moved s [] (some (.unsubscribed (.ok false)))
  | some subscription =>
    let request := Request.removeListener subscription.cacheName subscription.registration
    let s := s.modifyCache id Cache.dropSubscription
    let cluster := s.cluster.unbind subscription.registration
    if cluster.loses request then .moved (s.withCluster cluster) [.awaitRemoval request true] none
    else .moved (s.withCluster (cluster.receive request)) [.awaitRemoval request false] none

/-- The result of a removal, given what the cluster answered. -/
def removalResult (request : Request) : Except Error Response → Except Error Bool
  | .ok (.listenerRemoved removed) => .ok removed
  | .ok other => .error (.cluster (.unexpectedResponse request.kind other.kind))
  | .error e => .error e

/-- Takes the answer to a removal. -/
def awaitRemoval (s : Client) (request : Request) (lost : Bool) : Progress :=
  if lost then .moved s [] (some (.unsubscribed (.error Cluster.removalFailure)))
  else
    let answer := s.cluster.answer request
    .moved (s.withCluster answer.1) [] (some (.unsubscribed (removalResult request answer.2)))

/-- Asks all members for their reports on a cache. -/
def seed (s : Client) (id : CacheId) (limit : Duration) : Progress :=
  match s.caches[id]? with
  | none => .moved s [] none
  | some cache =>
    let asked := s.cluster.beginRound s.now [cache.name] limit
    let s := s.withCluster asked.1
    match asked.2 with
    | .ok round => .moved s [.awaitSeed id round] none
    | .error fault => .stopped s fault

/-- Takes the replies of a round that have come, and goes on when all are there. -/
def awaitRound (s : Client) (round : Round) (again : Round → Action)
    (finish : Round → Progress) : Progress :=
  match round.poll s.cluster s.now with
  | .error fault => .stopped s fault
  | .ok round => if round.isDone then finish round else .waiting s (again round)

/-- Tells the worker to stop. -/
def stopWorker (s : Client) : Progress :=
  match s.running with
  | none => .moved s [] (some (.flag false))
  | some id =>
    let s := s.modifyWorker id fun w => { w with signalled := true }
    .moved { s with running := none }
      [.awaitWorker id (s.now + s.coherence.shutdownTimeout.toTicks)] none

/-- Notes that a worker has stopped. One that took too long is stopped from outside. -/
def awaitWorker (s : Client) (id : WorkerId) : Progress :=
  if (s.workers[id]?).all Worker.isFinished then .moved s [] (some (.flag true))
  else .moved (s.setStage id .aborted) [] (some (.flag false))

/-- Takes the cache of a name out of the directory and tears it down. -/
def destroyCache (s : Client) (name : String) : Progress :=
  match s.directory[name]? with
  | none => .moved s [] (some (.flag false))
  | some id =>
    .moved { s with directory := s.directory.erase name }
      [.sealSetup id, .unsubscribe id, .release id, .conclude (.flag true)] none

/-- Registers the listener of one cache anew. A cache that was coherent keeps what it knows. -/
def resubscribe (s : Client) (id : CacheId) : Progress :=
  match s.caches[id]? with
  | none => .moved s [] none
  | some cache =>
    if cache.config.invalidateOnChange then
      .moved s [.unsubscribe id, .subscribe id (.settle !cache.isCoherent)] none
    else .moved s [] none

/-- Sends a request to the cluster, or to the member of a place. -/
def send (s : Client) (request : Request) (place : Option Nat) : Progress :=
  match place with
  | some place =>
    let asked := s.cluster.ask s.now place request
    .moved (s.withCluster asked.1) [.awaitCall asked.2] none
  | none =>
    if s.cluster.loses request then .moved s [] (some (.answered (.error Cluster.removalFailure)))
    else
      .moved (s.withCluster (s.cluster.receive request))
        [.awaitAnswer request (s.now + s.cluster.delayOf request)] none

/-- Takes the answer of a member. -/
def awaitCall (s : Client) (call : Call) : Progress :=
  if call.breaksDown then .stopped s (.memberBrokeDown call.address)
  else
    let answer := s.cluster.answerAt call.place call.refused call.request
    .moved (s.withCluster answer.1) [] (some (.answered answer.2))

/-- Whether an action of an activity can go on at present, at least in part. -/
def isReady (s : Client) (me : ActivityId) : Action → Bool
  | .enterSetup id | .sealSetup id =>
    (s.caches[id]?).all fun cache => cache.setup = .finished || mayEnter cache me
  | .awaitListener _ _ due _ | .sleep due | .awaitAnswer _ due => due ≤ s.now
  | .awaitSeed _ round | .awaitFetch round => round.isReady s.now
  | .awaitWorker id due => (s.workers[id]?).all Worker.isFinished || due ≤ s.now
  | .awaitCall call => call.due ≤ s.now
  | _ => true

/-- Notes that an activity waits for the setup of a cache, if that is what its action does. -/
def lineUp (s : Client) (me : ActivityId) : Action → Client
  | .enterSetup id | .sealSetup id => s.modifyCache id (enqueue · me)
  | _ => s

/-- Carries out an action that can go on. -/
def act (s : Client) (me : ActivityId) : Action → Progress
  | .findOrCreate name => s.openCache name
  | .enterSetup id => s.enterSetup me id
  | .finishSetup id => .moved (s.modifyCache id endSetup) [] none
  | .handOut name id => s.handOut name id
  | .sealSetup id => s.sealSetup id
  | .subscribe id followUp => s.subscribe id followUp
  | .awaitListener id shape _ followUp => s.awaitListener id shape followUp
  | .unsubscribe id => s.unsubscribe id
  | .awaitRemoval request lost => s.awaitRemoval request lost
  | .seed id limit => s.seed id limit
  | .awaitSeed id round =>
    s.awaitRound round (.awaitSeed id) fun round =>
      .moved (s.modifyCache id (·.seed round.reports)) [] none
  | .startWorker =>
    let started := s.startWorker
    .moved started.1 [] (some (.flag started.2))
  | .stopWorker => s.stopWorker
  | .awaitWorker id _ => s.awaitWorker id
  | .destroy name => s.destroyCache name
  | .release id => .moved (s.modifyCache id Cache.destroy) [] none
  | .close => .moved { s with closed := true } [] none
  | .destroyAll => .moved s (s.directory.keys.map .destroy) none
  | .resubscribeAll => .moved s (s.registered.map .resubscribe) none
  | .resubscribe id => s.resubscribe id
  | .sleep _ => .moved s [] (some .done)
  | .fetch names limit =>
    let asked := s.cluster.beginRound s.now names limit
    let s := s.withCluster asked.1
    match asked.2 with
    | .ok round => .moved s [.awaitFetch round] none
    | .error fault => .stopped s fault
  | .awaitFetch round =>
    s.awaitRound round .awaitFetch fun round =>
      .moved s [] (some (.fetched round.reports round.failures))
  | .send request member => s.send request member
  | .awaitAnswer request _ =>
    let answer := s.cluster.answer request
    .moved (s.withCluster answer.1) [] (some (.answered answer.2))
  | .awaitCall call => s.awaitCall call
  | .conclude outcome => .moved s [] (some outcome)

/-- Carries out an action of an activity, or lets it wait. -/
def perform (s : Client) (me : ActivityId) (action : Action) : Progress :=
  if s.isReady me action then s.act me action else .waiting (s.lineUp me action) action

/-- Gives up what a stopped activity was in the middle of: the setup of a cache is left to the next
one that waits for it. -/
def unwind (s : Client) (todo : List Action) : Client :=
  todo.foldl (fun s action => match action with
    | .finishSetup id => s.modifyCache id abandonSetup
    | _ => s) s

end Client

end NearCache
