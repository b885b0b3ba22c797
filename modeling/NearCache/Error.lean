import NearCache.Duration
import NearCache.Member

/-!
Errors by cause, and their texts. An error is an answer: unlike a fault it is handed to the caller,
who goes on.
-/

namespace NearCache

/-- What is wrong with a configuration. -/
inductive ConfigError
  | missingRequired (field : String)
  | invalidValue (field value reason : String)
deriving DecidableEq, Repr

/-- What went wrong between the client and the cluster. -/
inductive ClusterError
  | memberUnreachable (member : MemberAddress) (reason : String)
  | timeout (member : MemberAddress) (limit : Duration)
  | unexpectedResponse (request response : String)
  | subscriptionFailed (cacheName reason : String)
deriving DecidableEq, Repr

/-- Why a value has no serialized form, or bytes hold no value. -/
inductive SerializationError
  | encode (reason : String)
  | decode (length : Nat) (reason : String)
deriving DecidableEq, Repr

/-- Any error of the library. -/
inductive Error
  | config (cause : ConfigError)
  | cluster (cause : ClusterError)
  | serialization (cause : SerializationError)
deriving DecidableEq, Repr

namespace ConfigError

/-- The text of the cause. -/
def message : ConfigError → String
  | .missingRequired field => "Missing required configuration field: " ++ field
  | .invalidValue field value reason =>
    "Invalid value for " ++ field ++ ": " ++ value ++ " - " ++ reason

end ConfigError

namespace ClusterError

/-- The text of the cause. -/
def message : ClusterError → String
  | .memberUnreachable member reason => "Member " ++ member.text ++ " unreachable: " ++ reason
  | .timeout member limit => "Request to " ++ member.text ++ " timed out after " ++ limit.text
  | .unexpectedResponse request response =>
    "Unexpected response to " ++ request ++ ": " ++ response
  | .subscriptionFailed cacheName reason =>
    "Subscription for near cache " ++ cacheName ++ " failed: " ++ reason

end ClusterError

namespace SerializationError

/-- The text of the cause. -/
def message : SerializationError → String
  | .encode reason => "Failed to serialize value: " ++ reason
  | .decode length reason => "Failed to deserialize " ++ natText length ++ " bytes: " ++ reason

end SerializationError

namespace Error

/-- The text of the cause alone. -/
def causeMessage : Error → String
  | .config cause => cause.message
  | .cluster cause => cause.message
  | .serialization cause => cause.message

/-- The text of the cause, after the area it belongs to. -/
def message : Error → String
  | .config cause => "Config error: " ++ cause.message
  | .cluster cause => "Cluster error: " ++ cause.message
  | .serialization cause => "Serialization error: " ++ cause.message

end Error

end NearCache
