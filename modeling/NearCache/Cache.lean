import NearCache.Config.Coherence
import NearCache.Event
import NearCache.Json.Service
import NearCache.Message
import NearCache.Store.Invalidation

/-!
One near cache: its store, and the subscription through which the cluster tells it of changes. How
far the cache is kept coherent follows from the subscription that it holds, or from the failure to
obtain one.
-/

namespace NearCache

/-- A cached value, in the format of its cache. -/
inductive Value
  | binary (d : Data)
  | object (j : Json)
deriving DecidableEq

/-- A listener that the cluster has registered for a cache. -/
structure Subscription where
  cacheName : String
  registration : RegistrationId
  shape : EventShape
deriving DecidableEq, Repr

namespace Subscription

/-- The diagnostic text. -/
def shown (s : Subscription) : String :=
  openRecordText "Subscription"
    [("cache_name", quoted s.cacheName), ("registration_id", quoted s.registration),
      ("shape", s.shape.shown)]

end Subscription

/-- How a cache is kept consistent with the cluster. -/
inductive CoherenceMode
  /-- By repairable events, gap repair and anti-entropy. -/
  | repairable
  /-- By gap repair and anti-entropy alone, because no listener could be registered. -/
  | reconciledOnly
  /-- By events without sequence numbers, each of which clears the cache. -/
  | legacy
  /-- Not at all, or not yet. -/
  | untracked
deriving DecidableEq, Repr

namespace CoherenceMode

/-- The diagnostic text. -/
def shown : CoherenceMode → String
  | .repairable => "Repairable"
  | .reconciledOnly => "ReconciledOnly"
  | .legacy => "Legacy"
  | .untracked => "Untracked"

end CoherenceMode

/-- Number of an activity of a client. -/
abbrev ActivityId := Nat

/-- How far the setup of a cache has come, which runs once. -/
inductive Setup
  | pending
  | running
  | finished
deriving DecidableEq, Repr

/-- A near cache. -/
structure Cache where
  name : String
  config : CacheConfig
  /-- Size from which a batch of invalidations clears the cache. -/
  highWater : Nat
  store : Store Value
  subscription : Option Subscription
  /-- Whether the last attempt to register a listener failed. -/
  pushUnavailable : Bool
  setup : Setup
  /-- The activities that wait for the setup, in the order in which they came. -/
  waiting : List ActivityId
deriving DecidableEq

namespace Cache

/-- A new cache, empty and not subscribed. -/
def create (name : String) (config : CacheConfig) (coherence : CoherenceConfig) : Cache where
  name := name
  config := config
  highWater := coherence.batchHighWaterMark.toNat
  store := .empty (.ofConfig config) (.empty coherence.maxToleratedMisses.toInt)
  subscription := none
  pushUnavailable := false
  setup := .pending
  waiting := []

/-- The tracker of the cache. -/
def tracker (c : Cache) : Tracker :=
  c.store.tracker

/-- Replaces the store. -/
def withStore (c : Cache) (s : Store Value) : Cache :=
  { c with store := s }

/-- Replaces the tracker. -/
def withTracker (c : Cache) (t : Tracker) : Cache :=
  c.withStore (c.store.withTracker t)

/-- The number of slots, reservations included. -/
def size (c : Cache) : Nat :=
  c.store.size

/-- The shape of events that the current subscription delivers. -/
def eventShape? (c : Cache) : Option EventShape :=
  c.subscription.map Subscription.shape

/-- How the cache is kept consistent at present. -/
def mode (c : Cache) : CoherenceMode :=
  match c.eventShape? with
  | some .repairable => .repairable
  | some .legacy => .legacy
  | none => if c.pushUnavailable then .reconciledOnly else .untracked

/-- Whether the cache takes part in gap repair and anti-entropy. -/
def isCoherent (c : Cache) : Bool :=
  c.mode = .repairable || c.mode = .reconciledOnly

/-- Bytes in the format in which the cache holds values. Objects are read by the JSON service, where a
cache may in general be given any service. -/
def convert (c : Cache) (bytes : Data) : Except Error Value :=
  match c.config.format with
  | .binary => .ok (.binary bytes)
  | .object => (Json.decode bytes).map .object

/-- Reads a value. -/
def get (c : Cache) (key : Data) (now : Instant) : Cache × Option Value :=
  let found := c.store.get key now
  (c.withStore found.1, found.2)

/-- Stores a fetched value, stamped with what is known of its partition, and says whether the store
took it. Bytes that cannot be converted leave everything as it is. -/
def put (c : Cache) (key bytes : Data) (partition : PartitionId) (now : Instant) (draw : Nat) :
    Cache × Except Error Bool :=
  match c.convert bytes with
  | .error e => (c, .error e)
  | .ok value =>
    let stamped := c.tracker.stamp partition
    let stored := (c.withTracker stamped.1).store.put key value stamped.2 now draw
    (c.withStore stored.1, .ok stored.2)

/-- Reserves a slot ahead of a fetch, stamped with what is known of the key's partition. -/
def reserve (c : Cache) (key : Data) (partition : PartitionId) (draw : Nat) :
    Cache × Option ReservationId :=
  let stamped := c.tracker.stamp partition
  let reserved := (c.withTracker stamped.1).store.reserve key stamped.2 draw
  (c.withStore reserved.1, reserved.2)

/-- Publishes fetched bytes into a reservation. Bytes that cannot be converted end it. -/
def publish (c : Cache) (key : Data) (id : ReservationId) (bytes : Data) (now : Instant) :
    Cache × Except Error Bool :=
  match c.convert bytes with
  | .error e => (c.withStore (c.store.cancel key id).1, .error e)
  | .ok value =>
    let published := c.store.publish key id value now
    (c.withStore published.1, .ok published.2)

/-- Gives up a reservation. -/
def cancel (c : Cache) (key : Data) (id : ReservationId) : Cache × Bool :=
  let cancelled := c.store.cancel key id
  (c.withStore cancelled.1, cancelled.2)

/-- Removes one key. -/
def invalidate (c : Cache) (key : Data) : Cache × Bool :=
  let removed := c.store.invalidate key
  (c.withStore removed.1, removed.2)

/-- Removes all keys because they may have changed. -/
def invalidateAll (c : Cache) : Cache :=
  c.withStore c.store.invalidateAll

/-- Removes all keys. -/
def clear (c : Cache) : Cache :=
  c.withStore c.store.clear

/-- Raises the floor of every partition that missed too much, and counts them. -/
def repairGaps (c : Cache) : Cache × Nat :=
  let repaired := c.tracker.repairGaps
  (c.withTracker repaired.1, repaired.2)

/-- Applies an event of the shape that the cache expects. Without sequence numbers any change
clears the cache. -/
def applyEvent (c : Cache) : Event → Attempt Cache Unit
  | .single key position =>
    let applied := c.store.applySingle key position
    (c.withStore applied.1, applied.2)
  | .batch keys sources partitions sequences =>
    let applied := c.store.applyBatch c.highWater keys sources partitions sequences
    (c.withStore applied.1, applied.2.map fun _ => ())
  | .legacy _ => (c.invalidateAll, .ok ())
  | .legacyBatch _ => (c.invalidateAll, .ok ())

/-- Applies a delivered event. One that does not have the shape of the subscription clears the
cache and tells nothing else. -/
def onEvent (c : Cache) (event : Event) : Attempt Cache Unit :=
  match c.eventShape? with
  | some shape => if event.shape = shape then c.applyEvent event else (c.invalidateAll, .ok ())
  | none => c.applyEvent event

/-- Holds a new subscription in place of any other. -/
def installSubscription (c : Cache) (s : Subscription) : Cache :=
  { c with subscription := some s, pushUnavailable := false }

/-- Records that no listener could be registered. -/
def markPushUnavailable (c : Cache) : Cache :=
  { c with pushUnavailable := true }

/-- Lets go of the subscription. -/
def dropSubscription (c : Cache) : Cache :=
  { c with subscription := none }

/-- Drops all slots and all that was known of the partitions, as nothing will be learnt of them. -/
def downgrade (c : Cache) : Cache :=
  let cleared := c.clear
  cleared.withTracker cleared.tracker.reset

/-- Releases the local state of a cache whose subscription is gone. -/
def destroy (c : Cache) : Cache :=
  { c.downgrade with pushUnavailable := false }

/-- The diagnostic text. -/
def shown (c : Cache) : String :=
  openRecordText "NearCache"
    [("name", quoted c.name), ("config", c.config.shown), ("coherence_mode", c.mode.shown),
      ("len", natText c.size)]

end Cache

end NearCache
