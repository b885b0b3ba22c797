import NearCache.Config.Catalog
import NearCache.Config.Coherence
import NearCache.Message

/-!
Ready-made values to try a client with.
-/

namespace NearCache

namespace Samples

/-- A version with repairable events. -/
def repairableVersion : ServerVersion := ⟨4, 2, 0⟩

/-- A version without them. -/
def legacyVersion : ServerVersion := ⟨3, 7, 0⟩

/-- The default configuration under each name. -/
def catalog (names : List String) : ConfigCatalog :=
  .ofList (names.map CacheConfig.ofName)

/-- Settings with a given tolerance, a round of anti-entropy every half minute, and short limits. -/
def coherence (misses : Int64) : CoherenceConfig :=
  { CoherenceConfig.default with
    maxToleratedMisses := misses
    reconciliationSecs := 30
    memberTimeout := .ofSecs 5
    shutdownTimeout := .ofSecs 10 }

/-- A report of one source for some partitions, and of their sequence numbers under one name. -/
def report (source : SourceId) (name : String) (sequences : List (PartitionId × Sequence)) :
    MemberReport :=
  ⟨sequences.map fun p => (p.1, source), [(name, sequences)]⟩

end Samples

end NearCache
