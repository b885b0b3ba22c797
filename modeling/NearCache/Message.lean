import NearCache.Identity
import NearCache.Version

/-!
Requests to the cluster and its responses.
-/

namespace NearCache

/-- Text by which the cluster knows a registered listener. -/
abbrev RegistrationId := String

/-- What one member reports of its partitions: the current source of each, and for each cache name
the latest sequence of each. -/
structure MemberReport where
  sources : List (PartitionId × SourceId)
  sequences : List (String × List (PartitionId × Sequence))
deriving DecidableEq, Repr, Inhabited

namespace MemberReport

/-- The report of a member that owns nothing. -/
def empty : MemberReport := ⟨[], []⟩

end MemberReport

/-- What a client asks of the cluster. -/
inductive Request
  | fetchMetadata (names : List String)
  | addListener (cacheName : String) (shape : EventShape) (localOnly : Bool)
  | removeListener (cacheName : String) (registration : RegistrationId)
deriving DecidableEq, Repr

/-- What the cluster answers. -/
inductive Response
  | metadata (report : MemberReport)
  | listenerAdded (registration : RegistrationId)
  | listenerRemoved (removed : Bool)
deriving DecidableEq, Repr

namespace Request

/-- The name of the kind of request. -/
def kind : Request → String
  | .fetchMetadata .. => "fetch_invalidation_metadata"
  | .addListener .. => "add_invalidation_listener"
  | .removeListener .. => "remove_invalidation_listener"

end Request

namespace Response

/-- The name of the kind of response. -/
def kind : Response → String
  | .metadata .. => "invalidation_metadata"
  | .listenerAdded .. => "listener_added"
  | .listenerRemoved .. => "listener_removed"

end Response

end NearCache
