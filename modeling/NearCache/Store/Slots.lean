import NearCache.Config.Cache
import NearCache.Store.Entry

/-!
The slots of a store: a map from keys to slots and an index of the same slots by tick. Every use of
a slot gives it the next tick, so the lowest tick belongs to the slot whose last use is the longest
ago. A slot holds a readable entry or is reserved for a value that is still being fetched.
-/

namespace NearCache

/-- Number of a reservation. -/
abbrev ReservationId := Nat

/-- What a slot holds. -/
inductive SlotState (ν : Type)
  | reserved (id : ReservationId) (stamp : Position)
  | ready (entry : Entry ν)
deriving DecidableEq, Repr

/-- A slot and its place in the order of use. -/
structure Slot (ν : Type) where
  tick : Nat
  state : SlotState ν
deriving DecidableEq, Repr

/-- The slots of a store. Ticks and reservation numbers are taken to stay below 2^64, where counters
of 64 bits would begin anew. -/
structure Slots (ν : Type) where
  byKey : Std.ExtTreeMap Data (Slot ν)
  byTick : Std.ExtTreeMap Nat Data
  nextTick : Nat
  nextReservation : ReservationId
deriving DecidableEq

namespace Slots

variable {ν : Type}

/-- No slot; reservations are numbered from one. -/
def empty : Slots ν := ⟨∅, ∅, 0, 1⟩

instance : Inhabited (Slots ν) := ⟨empty⟩

/-- The number of slots. -/
def size (s : Slots ν) : Nat :=
  s.byKey.size

/-- Whether a key has a slot. -/
def contains (s : Slots ν) (key : Data) : Bool :=
  s.byKey.contains key

/-- What the slot of a key holds. -/
def state? (s : Slots ν) (key : Data) : Option (SlotState ν) :=
  s.byKey[key]?.map Slot.state

/-- The readable entry of a key. -/
def entry? (s : Slots ν) (key : Data) : Option (Entry ν) :=
  match s.state? key with
  | some (.ready e) => some e
  | _ => none

/-- Whether the key's slot is reserved under this number. -/
def holdsReservation (s : Slots ν) (key : Data) (id : ReservationId) : Bool :=
  match s.state? key with
  | some (.reserved own _) => own == id
  | _ => false

/-- The index without the tick of the slot that a key has. -/
def withoutTick (s : Slots ν) (key : Data) : Std.ExtTreeMap Nat Data :=
  match s.byKey[key]? with
  | some slot => s.byTick.erase slot.tick
  | none => s.byTick

/-- Gives the key a slot, in place of the one it has, as the latest one used. -/
def insert (s : Slots ν) (key : Data) (state : SlotState ν) : Slots ν where
  byKey := s.byKey.insert key ⟨s.nextTick, state⟩
  byTick := (s.withoutTick key).insert s.nextTick key
  nextTick := s.nextTick + 1
  nextReservation := s.nextReservation

/-- Puts something else into the slot of a key, which keeps its place in the order of use. -/
def replace (s : Slots ν) (key : Data) (state : SlotState ν) : Slots ν :=
  { s with byKey := s.byKey.modify key fun slot => { slot with state := state } }

/-- Removes the slot of a key. -/
def remove (s : Slots ν) (key : Data) : Slots ν :=
  { s with byKey := s.byKey.erase key, byTick := s.withoutTick key }

/-- Removes all slots. Ticks and reservation numbers go on from where they are. -/
def clear (s : Slots ν) : Slots ν :=
  { s with byKey := ∅, byTick := ∅ }

/-- Reserves a slot for a key under the next reservation number. -/
def reserve (s : Slots ν) (key : Data) (stamp : Position) : Slots ν :=
  { s.insert key (.reserved s.nextReservation stamp) with nextReservation := s.nextReservation + 1 }

/-- The key whose slot has to make room under a policy, if the policy evicts and there is a slot.
The draw settles which one under random eviction. -/
def victim? (s : Slots ν) (policy : EvictionPolicy) (draw : Nat) : Option Data :=
  match policy with
  | .lru => s.byTick.minEntry?.map Prod.snd
  | .random => s.byKey.keys[draw % s.byKey.size]?
  | .none => none

end Slots

end NearCache
