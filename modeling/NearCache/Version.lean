import NearCache.Text.Blank
import NearCache.Text.Decimal
import NearCache.Text.Record
import NearCache.Text.Split

/-!
Protocol versions of a cluster and the shape of the invalidation events that follows from them.
-/

namespace NearCache

/-- A protocol version, ordered by its three numbers from left to right. -/
structure ServerVersion where
  major : UInt16
  minor : UInt16
  patch : UInt16
deriving DecidableEq, Repr, Inhabited

namespace ServerVersion

/-- One number of a version. -/
def readPart? (cs : List Char) : Option UInt16 :=
  (readNat? 65535 cs).map UInt16.ofNat

/-- Two or three numbers between dots, where a missing patch number is zero. -/
def ofParts? : List (List Char) → Option ServerVersion
  | [major, minor] => do
    return ⟨← readPart? major, ← readPart? minor, 0⟩
  | [major, minor, patch] => do
    return ⟨← readPart? major, ← readPart? minor, ← readPart? patch⟩
  | _ => none

/-- Reads a version from a text with blanks around it. What follows the first dash is a label and
does not count. -/
def parse? (s : String) : Option ServerVersion :=
  ofParts? (splitOnChar '.' ((trimBlank s.toList).takeWhile (· ≠ '-')))

/-- The three numbers with dots between them. -/
def text (v : ServerVersion) : String :=
  natText v.major.toNat ++ "." ++ natText v.minor.toNat ++ "." ++ natText v.patch.toNat

/-- Whether `v` comes before `w` or equals it. -/
def le (v w : ServerVersion) : Bool :=
  v.major < w.major || (v.major == w.major &&
    (v.minor < w.minor || (v.minor == w.minor && v.patch ≤ w.patch)))

/-- The oldest version that emits repairable events. -/
def minRepairable : ServerVersion := ⟨3, 8, 0⟩

/-- Whether the version emits repairable events. -/
def supportsRepairable (v : ServerVersion) : Bool :=
  minRepairable.le v

/-- The diagnostic text. -/
def shown (v : ServerVersion) : String :=
  recordText "ServerVersion"
    [("major", natText v.major.toNat), ("minor", natText v.minor.toNat), ("patch", natText v.patch.toNat)]

end ServerVersion

/-- What the invalidation events of a subscription carry. -/
inductive EventShape
  /-- Keys alone, which allow no coherence tracking. -/
  | legacy
  /-- Keys with source and sequence, which allow repair. -/
  | repairable
deriving DecidableEq, Repr, Inhabited

namespace EventShape

/-- The shape that a cluster of version `v` delivers. -/
def negotiate (v : ServerVersion) : EventShape :=
  if v.supportsRepairable then .repairable else .legacy

/-- The name in serialized form. -/
def name : EventShape → String
  | .legacy => "legacy"
  | .repairable => "repairable"

/-- The diagnostic text. -/
def shown : EventShape → String
  | .legacy => "Legacy"
  | .repairable => "Repairable"

end EventShape

end NearCache
