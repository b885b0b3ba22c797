import NearCache.Error
import NearCache.Identity
import NearCache.Json.Printer
import NearCache.Json.Value

/-!
Serialization of values as JSON in UTF-8.
-/

namespace NearCache

namespace Json

/-- The bytes of a value. -/
def encode (j : Json) : Data :=
  .ofString j.text

/-- The value that bytes hold. -/
def decode (d : Data) : Except Error Json :=
  match d.toString?.bind ofText? with
  | some j => .ok j
  | none => .error (.serialization (.decode d.size "<json>"))

end Json

end NearCache
