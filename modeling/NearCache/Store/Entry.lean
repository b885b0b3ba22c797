import NearCache.Duration
import NearCache.Identity

/-!
Entries of a store and the limits on their life. Age is counted from creation, idleness from the
last read; a limit is over when more time than it allows has passed.
-/

namespace NearCache

/-- A readable value under a key. -/
structure Entry (ν : Type) where
  key : Data
  value : ν
  /-- The position known for the partition when the value was fetched. -/
  stamp : Position
  created : Instant
  accessed : Instant
  hits : Nat
deriving DecidableEq, Repr

/-- The longest limit that is kept to: a signed 64-bit number of milliseconds, in nanoseconds. -/
def longestLimit : Nat := 9223372036854775807 * 1000000

/-- Whether more time than the limit has passed. A limit too long to be counted is never over. -/
def isOver (since now : Instant) (limit : Option Duration) : Bool :=
  match limit with
  | some d => d.toNanos ≤ longestLimit && (d.toNanos : Int) < now - since
  | none => false

namespace Entry

variable {ν : Type}

/-- A new entry, not read yet. -/
def create (key : Data) (value : ν) (stamp : Position) (now : Instant) : Entry ν :=
  ⟨key, value, stamp, now, now, 0⟩

/-- Whether the entry is too old or was idle for too long. -/
def isExpired (e : Entry ν) (now : Instant) (timeToLive maxIdle : Option Duration) : Bool :=
  isOver e.created now timeToLive || isOver e.accessed now maxIdle

/-- The entry after one more read. -/
def read (e : Entry ν) (now : Instant) : Entry ν :=
  { e with accessed := now, hits := e.hits + 1 }

end Entry

end NearCache
