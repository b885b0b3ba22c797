import NearCache.Cache
import NearCache.Proofs.History
import NearCache.Proofs.Store.Effects

/-!
Runs of a cache: reads and writes of its clients, events of the cluster and changes of the
subscription in any order, and what one of them makes of the slot of one key.
-/

namespace NearCache

/-- What a slot holds, apart from its stamp and the record of its use: the number of a reservation
or a value. -/
def SlotState.content {ν : Type} : SlotState ν → ReservationId ⊕ ν
  | .reserved id _ => .inl id
  | .ready e => .inr e.value

/-- An event that costs this key its slot if it has the shape that the cache expects: it names the
key or none at all, bears no sequence numbers, or is a batch that lists the key, is as large as the
high-water mark or does not fit together. -/
def Event.Hits (highWater : Nat) (key : Data) : Event → Prop
  | .single named _ => named = none ∨ named = some key
  | .batch keys sources partitions sequences =>
    (sources.length ≠ keys.length ∨ partitions.length ≠ keys.length ∨
      sequences.length ≠ keys.length) ∨ highWater ≤ keys.length ∨ key ∈ keys
  | .legacy _ | .legacyBatch _ => True

namespace Cache

/-- A call of a cache, or a delivery to it. -/
inductive Call where
  | put (key bytes : Data) (partition : PartitionId) (now : Instant) (draw : Nat)
  | reserve (key : Data) (partition : PartitionId) (draw : Nat)
  | publish (key : Data) (id : ReservationId) (bytes : Data) (now : Instant)
  | cancel (key : Data) (id : ReservationId)
  | get (key : Data) (now : Instant)
  | invalidate (key : Data)
  | invalidateAll
  | clear
  | repairGaps
  | downgrade
  | event (event : Event)
  | subscribe (subscription : Subscription)
  | unsubscribe
  | subscribeFailed
  /-- A report of the members has moved the tracker on. -/
  | track (tracker : Tracker)

/-- The cache after a call. -/
def perform (c : Cache) : Call → Cache
  | .put key bytes partition now draw => (c.put key bytes partition now draw).1
  | .reserve key partition draw => (c.reserve key partition draw).1
  | .publish key id bytes now => (c.publish key id bytes now).1
  | .cancel key id => (c.cancel key id).1
  | .get key now => (c.get key now).1
  | .invalidate key => (c.invalidate key).1
  | .invalidateAll => c.invalidateAll
  | .clear => c.clear
  | .repairGaps => c.repairGaps.1
  | .downgrade => c.downgrade
  | .event event => (c.onEvent event).1
  | .subscribe subscription => c.installSubscription subscription
  | .unsubscribe => c.dropSubscription
  | .subscribeFailed => c.markPushUnavailable
  | .track tracker => c.withTracker tracker

/-- The cache after several calls. -/
def run (c : Cache) (calls : List Call) : Cache :=
  History.run perform c calls

/-- The calls, each with the cache that met it. -/
def steps (c : Cache) (calls : List Call) : List (Cache × Call) :=
  History.steps perform c calls

/-- What the cache holds under a key. -/
def content? (c : Cache) (key : Data) : Option (ReservationId ⊕ Value) :=
  (c.store.slots.state? key).map SlotState.content

/-- A step puts this value under this key, with success. -/
def Puts (key : Data) (value : Value) : Cache × Call → Prop
  | (c, .put other bytes partition now draw) =>
    other = key ∧ c.convert bytes = .ok value ∧
      (c.put other bytes partition now draw).2 = .ok true
  | _ => False

/-- A step issues this number to this key. -/
def Issues (key : Data) (id : ReservationId) : Cache × Call → Prop
  | (c, .reserve other partition draw) =>
    other = key ∧ (c.reserve other partition draw).2 = some id
  | _ => False

/-- A step publishes this value under this key and number, with success. -/
def Publishes (key : Data) (id : ReservationId) (value : Value) : Cache × Call → Prop
  | (c, .publish other own bytes now) =>
    other = key ∧ own = id ∧ c.convert bytes = .ok value ∧
      (c.publish other own bytes now).2 = .ok true
  | _ => False

/-- A step puts or publishes some value under this key, with success. -/
def Stores (key : Data) (step : Cache × Call) : Prop :=
  ∃ value, Puts key value step ∨ ∃ id, Publishes key id value step

/-- A step discards what is held under this key: an invalidation of the key or of all keys, a
downgrade, or an event that hits the key or does not have the shape of the subscription. -/
def Discards (key : Data) : Cache × Call → Prop
  | (_, .invalidate other) => other = key
  | (_, .invalidateAll) | (_, .clear) | (_, .downgrade) => True
  | (c, .event e) =>
    (∃ shape, c.eventShape? = some shape ∧ e.shape ≠ shape) ∨ e.Hits c.highWater key
  | _ => False

section Events

variable (c : Cache) (key : Data) (e : Event)

/-- An event that is applied removes exactly the keys that it hits. -/
theorem state?_applyEvent :
    (e.Hits c.highWater key ∧ (c.applyEvent e).1.store.slots.state? key = none) ∨
    (¬e.Hits c.highWater key ∧
      (c.applyEvent e).1.store.slots.state? key = c.store.slots.state? key) := by
  by_cases hHits : e.Hits c.highWater key
  · refine Or.inl ⟨hHits, ?_⟩
    cases e with
    | single named position =>
        exact (c.store.state?_applySingle key named position).trans (if_pos hHits)
    | batch keys sources partitions sequences =>
        have hBatch := c.store.state?_applyBatch key c.highWater keys sources partitions sequences
        exact hBatch.trans (if_pos hHits)
    | legacy named => exact c.store.state?_invalidateAll key
    | legacyBatch keys => exact c.store.state?_invalidateAll key
  · refine Or.inr ⟨hHits, ?_⟩
    cases e with
    | single named position =>
        exact (c.store.state?_applySingle key named position).trans (if_neg hHits)
    | batch keys sources partitions sequences =>
        have hBatch := c.store.state?_applyBatch key c.highWater keys sources partitions sequences
        exact hBatch.trans (if_neg hHits)
    | legacy named => exact absurd trivial hHits
    | legacyBatch keys => exact absurd trivial hHits

/-- An event that is delivered discards what is held under a key, or leaves it alone. -/
theorem state?_onEvent :
    (Discards key (c, .event e) ∧ (c.onEvent e).1.store.slots.state? key = none) ∨
    (¬Discards key (c, .event e) ∧
      (c.onEvent e).1.store.slots.state? key = c.store.slots.state? key) := by
  unfold onEvent Discards
  cases hShape : c.eventShape? with
  | none => simpa [hShape] using state?_applyEvent c key e
  | some shape =>
      by_cases hFits : e.shape = shape
      · simpa [hShape, hFits] using state?_applyEvent c key e
      · refine Or.inl ⟨Or.inl ⟨shape, hShape, hFits⟩, ?_⟩
        simp only [hFits, if_false]
        exact c.store.state?_invalidateAll key

end Events

end Cache

end NearCache
