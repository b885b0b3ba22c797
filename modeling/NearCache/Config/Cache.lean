import NearCache.Duration
import NearCache.Error
import NearCache.Text.Split
import NearCache.Text.Record

/-!
Configuration of one near cache. Its name is a cache name, or a pattern in which a single star
stands for any text.
-/

namespace NearCache

/-- Which slot makes room when a cache is full. -/
inductive EvictionPolicy
  /-- The one whose last use is the longest ago. -/
  | lru
  /-- Any one. -/
  | random
  /-- None: new keys are refused. -/
  | none
deriving DecidableEq, Repr, Inhabited

namespace EvictionPolicy

/-- The name in serialized form. -/
def name : EvictionPolicy → String
  | .lru => "lru"
  | .random => "random"
  | .none => "none"

/-- The diagnostic text. -/
def shown : EvictionPolicy → String
  | .lru => "Lru"
  | .random => "Random"
  | .none => "None"

end EvictionPolicy

/-- How values are held in memory. -/
inductive InMemoryFormat
  /-- As the serialized bytes. -/
  | binary
  /-- As the value that the bytes hold, read once on insertion. -/
  | object
deriving DecidableEq, Repr, Inhabited

namespace InMemoryFormat

/-- The name in serialized form. -/
def name : InMemoryFormat → String
  | .binary => "binary"
  | .object => "object"

/-- The diagnostic text. -/
def shown : InMemoryFormat → String
  | .binary => "Binary"
  | .object => "Object"

end InMemoryFormat

/-- Configuration of one near cache. -/
structure CacheConfig where
  name : String
  /-- Bound on the number of slots, reserved ones included. -/
  maxSize : UInt64
  eviction : EvictionPolicy
  /-- Age beyond which an entry is expired. -/
  timeToLive : Option Duration
  /-- Time without a read beyond which an entry is expired. -/
  maxIdle : Option Duration
  format : InMemoryFormat
  /-- Whether the cache subscribes to invalidation events. -/
  invalidateOnChange : Bool
deriving DecidableEq, Repr, Inhabited

namespace CacheConfig

/-- The default settings under a given name or pattern. -/
def ofName (name : String) : CacheConfig where
  name := name
  maxSize := 10000
  eviction := .lru
  timeToLive := none
  maxIdle := none
  format := .binary
  invalidateOnChange := true

/-- A limit on an entry's life must be positive when it is set. -/
def checkLimit (name field : String) (limit : Option Duration) : Except Error Unit :=
  match limit with
  | some d =>
    if d.isZero then
      throw (.config (.invalidValue ("near_cache[" ++ name ++ "]." ++ field) "0s"
        (field ++ " must be positive when set")))
    else pure ()
  | none => pure ()

/-- The first thing wrong with a configuration, in the order of its fields. -/
def validate (c : CacheConfig) : Except Error Unit := do
  if c.name.isEmpty then
    throw (.config (.missingRequired "near_cache.name"))
  if c.name.toList.count '*' > 1 then
    throw (.config (.invalidValue "near_cache.name" c.name "at most one '*' wildcard is supported"))
  if c.maxSize = 0 then
    throw (.config (.invalidValue ("near_cache[" ++ c.name ++ "].max_size") "0"
      "max_size must be positive"))
  checkLimit c.name "time_to_live" c.timeToLive
  checkLimit c.name "max_idle" c.maxIdle

/-- How many bytes of a cache name the pattern fixes, if it has a star and matches: the name is what
stands before the star, then any text, then what stands after it. A name without a star has no score:
a lookup tries the exact name first and scores patterns only. -/
def patternScore? (c : CacheConfig) (name : String) : Option Nat :=
  match cutAtChar? '*' c.name.toList with
  | none => none
  | some (before, after) =>
    let fixed := utf8Length before + utf8Length after
    if fixed ≤ utf8Length name.toList ∧ before.isPrefixOf name.toList ∧ after.isSuffixOf name.toList then
      some fixed
    else none

/-- The diagnostic text. -/
def shown (c : CacheConfig) : String :=
  recordText "NearCacheConfig"
    [("name", quoted c.name), ("max_size", natText c.maxSize.toNat),
      ("eviction_policy", c.eviction.shown),
      ("time_to_live", optionText (c.timeToLive.map Duration.text)),
      ("max_idle", optionText (c.maxIdle.map Duration.text)),
      ("in_memory_format", c.format.shown),
      ("invalidate_on_change", boolText c.invalidateOnChange)]

end CacheConfig

end NearCache
