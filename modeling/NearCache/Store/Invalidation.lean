import NearCache.Store.Basic

/-!
Applying repairable invalidation events to a store. Keys are removed before the tracker moves on, so
no read finds an old value under a new sequence number.
-/

namespace NearCache

/-- What a batch of invalidations did to the slots. -/
inductive BatchOutcome
  /-- The keys were removed one by one; so many of them had a slot. -/
  | perKey (evicted : Nat)
  /-- The batch was large enough to clear the store at once. -/
  | full
  /-- The lists of the batch had different lengths; the store was cleared. -/
  | malformed
deriving DecidableEq, Repr

namespace Store

variable {ν : Type}

/-- Removes several keys and counts those that had a slot. -/
def invalidateKeys (s : Store ν) : List Data → Store ν × Nat
  | [] => (s, 0)
  | key :: rest =>
    let first := s.invalidate key
    let others := first.1.invalidateKeys rest
    (others.1, others.2 + first.2.toNat)

/-- Applies positions to the tracker, up to the first fault. -/
def observeAll (s : Store ν) (positions : List Position) : Attempt (Store ν) Unit :=
  let seen := s.tracker.observeAll positions
  (s.withTracker seen.1, seen.2)

/-- Applies the invalidation of one key, or of all keys. -/
def applySingle (s : Store ν) (key : Option Data) (position : Position) : Attempt (Store ν) Unit :=
  let cleared := match key with
    | some k => (s.invalidate k).1
    | none => s.invalidateAll
  cleared.observeAll [position]

/-- The positions that three parallel lists hold. -/
def batchPositions (sources : List SourceId) (partitions : List PartitionId)
    (sequences : List Sequence) : List Position :=
  (sources.zip (partitions.zip sequences)).map fun p => ⟨p.2.1, p.1, p.2.2⟩

/-- Applies a batch of invalidations. A batch of the high-water mark's size or more clears the store;
one whose lists do not fit together clears it too, and tells nothing of any partition. -/
def applyBatch (s : Store ν) (highWater : Nat) (keys : List Data) (sources : List SourceId)
    (partitions : List PartitionId) (sequences : List Sequence) :
    Attempt (Store ν) BatchOutcome :=
  if sources.length ≠ keys.length ∨ partitions.length ≠ keys.length ∨
      sequences.length ≠ keys.length then
    (s.invalidateAll, .ok .malformed)
  else
    let removed :=
      if keys.length ≥ highWater then (s.invalidateAll, BatchOutcome.full)
      else
        let evicted := s.invalidateKeys keys
        (evicted.1, .perKey evicted.2)
    let seen := removed.1.observeAll (batchPositions sources partitions sequences)
    (seen.1, seen.2.map fun _ => removed.2)

end Store

end NearCache
