import NearCache.Fault

/-!
Counters of what a store has done, and the hit rate.
-/

namespace NearCache

/-- Counts since the store was created. Each is taken to stay below 2^64, where a counter of 64 bits
would begin anew. -/
structure Counters where
  hits : Nat
  misses : Nat
  /-- Slots removed to make room. -/
  evictions : Nat
  /-- Entries removed by a read that found them too old or idle for too long. -/
  expirations : Nat
  /-- Entries removed by a read that found their stamp stale. -/
  staleReads : Nat
  /-- Invalidations of one key that removed a slot. -/
  invalidations : Nat
  /-- Invalidations of the whole store. -/
  fullInvalidations : Nat
deriving DecidableEq, Repr, Inhabited

namespace Counters

/-- Nothing has happened yet. -/
def zero : Counters := ⟨0, 0, 0, 0, 0, 0, 0⟩

/-- All counters in order. -/
def toList (c : Counters) : List Nat :=
  [c.hits, c.misses, c.evictions, c.expirations, c.staleReads, c.invalidations, c.fullInvalidations]

end Counters

/-- The share of hits among all reads, zero before the first read. Counters are 64 bits wide, and so
is their sum. -/
def hitRate (hits misses : Nat) : Except Fault Float :=
  if hits + misses ≥ UInt64.size then .error .addOverflow
  else if hits + misses = 0 then .ok 0.0
  else .ok ((UInt64.ofNat hits).toFloat / (UInt64.ofNat (hits + misses)).toFloat)

end NearCache
