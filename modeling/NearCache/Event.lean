import NearCache.Identity
import NearCache.Version

/-!
Invalidation events, as the cluster delivers them.
-/

namespace NearCache

/-- Notice that keys changed in the cluster. A missing key means that all of them did. -/
inductive Event
  | single (key : Option Data) (position : Position)
  /-- Several keys at once; the four lists belong together element by element, if they have the
  same length. -/
  | batch (keys : List Data) (sources : List SourceId) (partitions : List PartitionId)
      (sequences : List Sequence)
  | legacy (key : Option Data)
  | legacyBatch (keys : List Data)
deriving DecidableEq, Repr

namespace Event

/-- The shape of subscription that delivers such an event. -/
def shape : Event → EventShape
  | .single .. | .batch .. => .repairable
  | .legacy .. | .legacyBatch .. => .legacy

/-- The name of the kind of event. -/
def kind : Event → String
  | .single .. => "single"
  | .batch .. => "batch"
  | .legacy .. => "legacy"
  | .legacyBatch .. => "legacy_batch"

end Event

end NearCache
