import NearCache.Store.Counters
import NearCache.Store.Slots
import NearCache.Tracker

/-!
The bounded record store of a near cache. A read drops an entry that is expired or whose stamp has
turned stale. A value that is fetched from the cluster is published into a slot reserved before the
fetch, so that an invalidation in between, which removes the slot, wins over the value.
-/

namespace NearCache

/-- Bounds of a store. -/
structure Limits where
  maxSize : Nat
  eviction : EvictionPolicy
  timeToLive : Option Duration
  maxIdle : Option Duration
deriving DecidableEq, Repr

namespace Limits

/-- The bounds that a cache's configuration sets. -/
def ofConfig (c : CacheConfig) : Limits :=
  ⟨c.maxSize.toNat, c.eviction, c.timeToLive, c.maxIdle⟩

end Limits

/-- A bounded store of values, with the tracker that its reads consult. -/
structure Store (ν : Type) where
  limits : Limits
  slots : Slots ν
  counters : Counters
  tracker : Tracker
deriving DecidableEq

namespace Store

variable {ν : Type}

/-- A store without slots. -/
def empty (limits : Limits) (tracker : Tracker) : Store ν :=
  ⟨limits, .empty, .zero, tracker⟩

/-- The number of slots, reservations included. -/
def size (s : Store ν) : Nat :=
  s.slots.size

/-- Replaces the tracker. -/
def withTracker (s : Store ν) (t : Tracker) : Store ν :=
  { s with tracker := t }

/-- What a read finds under a key. -/
inductive Reading (ν : Type)
  | absent
  | expired
  | stale
  | hit (entry : Entry ν)

/-- What a read at an instant finds under a key. A reserved slot is not readable. -/
def reading (s : Store ν) (key : Data) (now : Instant) : Reading ν :=
  match s.slots.entry? key with
  | none => .absent
  | some e =>
    if e.isExpired now s.limits.timeToLive s.limits.maxIdle then .expired
    else if s.tracker.isStale e.stamp then .stale
    else .hit e

/-- Reads a value at an instant. An entry that may not be read any more is removed; one that is read
becomes the latest used. -/
def get (s : Store ν) (key : Data) (now : Instant) : Store ν × Option ν :=
  match s.reading key now with
  | .absent => ({ s with counters.misses := s.counters.misses + 1 }, none)
  | .expired =>
    ({ s with
        slots := s.slots.remove key
        counters.misses := s.counters.misses + 1
        counters.expirations := s.counters.expirations + 1 }, none)
  | .stale =>
    ({ s with
        slots := s.slots.remove key
        counters.misses := s.counters.misses + 1
        counters.staleReads := s.counters.staleReads + 1 }, none)
  | .hit e =>
    ({ s with
        slots := s.slots.insert key (.ready (e.read now))
        counters.hits := s.counters.hits + 1 }, some e.value)

/-- The readable entry of a key, without the effects of a read. -/
def peek (s : Store ν) (key : Data) : Option (Entry ν) :=
  s.slots.entry? key

/-- Makes room for one more slot, if there is none, and says whether there is room now. Only a victim
that has a slot makes room. -/
def makeRoom (s : Store ν) (draw : Nat) : Store ν × Bool :=
  if s.size < s.limits.maxSize then (s, true)
  else
    match (s.slots.victim? s.limits.eviction draw).filter s.slots.contains with
    | some key =>
      ({ s with
          slots := s.slots.remove key
          counters.evictions := s.counters.evictions + 1 }, true)
    | none => (s, false)

/-- Stores a value under a key. Refused if the key is new, the store is full and nothing may be
evicted. The draw settles a random eviction. -/
def put (s : Store ν) (key : Data) (value : ν) (stamp : Position) (now : Instant) (draw : Nat) :
    Store ν × Bool :=
  let s := s.withTracker (s.tracker.touch stamp.partition)
  let room := if s.slots.contains key then (s, true) else s.makeRoom draw
  if room.2 then
    ({ room.1 with slots := room.1.slots.insert key (.ready (.create key value stamp now)) }, true)
  else (room.1, false)

/-- Reserves a slot for a key ahead of fetching its value. Refused if the key has a slot, or if the
store is full and nothing may be evicted. -/
def reserve (s : Store ν) (key : Data) (stamp : Position) (draw : Nat) :
    Store ν × Option ReservationId :=
  let s := s.withTracker (s.tracker.touch stamp.partition)
  if s.slots.contains key then (s, none)
  else
    let room := s.makeRoom draw
    if room.2 then
      ({ room.1 with slots := room.1.slots.reserve key stamp }, some room.1.slots.nextReservation)
    else (room.1, none)

/-- Publishes a value into a slot reserved under this number, and says whether there was one. The
slot keeps its stamp and its place in the order of use. -/
def publish (s : Store ν) (key : Data) (id : ReservationId) (value : ν) (now : Instant) :
    Store ν × Bool :=
  match s.slots.state? key with
  | some (.reserved own stamp) =>
    if own = id then
      ({ s with slots := s.slots.replace key (.ready (.create key value stamp now)) }, true)
    else (s, false)
  | _ => (s, false)

/-- Gives up a reservation, and says whether it was still held. -/
def cancel (s : Store ν) (key : Data) (id : ReservationId) : Store ν × Bool :=
  if s.slots.holdsReservation key id then ({ s with slots := s.slots.remove key }, true)
  else (s, false)

/-- Removes the slot of a key, readable or reserved, and says whether there was one. -/
def invalidate (s : Store ν) (key : Data) : Store ν × Bool :=
  if s.slots.contains key then
    ({ s with
        slots := s.slots.remove key
        counters.invalidations := s.counters.invalidations + 1 }, true)
  else (s, false)

/-- Removes all slots because everything may have changed in the cluster. -/
def invalidateAll (s : Store ν) : Store ν :=
  { s with
    slots := s.slots.clear
    counters.fullInvalidations := s.counters.fullInvalidations + 1 }

/-- Removes all slots. -/
def clear (s : Store ν) : Store ν :=
  { s with slots := s.slots.clear }

end Store

end NearCache
