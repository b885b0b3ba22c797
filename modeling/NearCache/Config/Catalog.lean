import Std.Data.ExtTreeMap.Lemmas
import NearCache.Config.Cache

/-!
The configured caches, by name or pattern, and the lookup of the configuration for a cache.
-/

namespace NearCache

/-- The configurations of a client, at most one under each name or pattern. -/
structure ConfigCatalog where
  configs : Std.ExtTreeMap String CacheConfig
deriving DecidableEq, Inhabited

namespace ConfigCatalog

/-- No configuration at all. -/
def empty : ConfigCatalog := ⟨∅⟩

/-- Adds a configuration in place of any earlier one of the same name. -/
def insert (cs : ConfigCatalog) (c : CacheConfig) : ConfigCatalog :=
  ⟨cs.configs.insert c.name c⟩

/-- The catalog that holds the given configurations, later ones in place of earlier ones. -/
def ofList (configs : List CacheConfig) : ConfigCatalog :=
  configs.foldl insert empty

/-- The configurations in the order of their names. -/
def toList (cs : ConfigCatalog) : List CacheConfig :=
  cs.configs.toList.map Prod.snd

/-- The number of configurations. -/
def size (cs : ConfigCatalog) : Nat :=
  cs.configs.size

/-- The better of a match found so far and one more configuration: a later one wins only with a
higher score. -/
def better (name : String) (best : Option (Nat × CacheConfig)) (c : CacheConfig) :
    Option (Nat × CacheConfig) :=
  match c.patternScore? name, best with
  | none, _ => best
  | some score, none => some (score, c)
  | some score, some (top, _) => if score > top then some (score, c) else best

/-- The configuration for a cache name: the one of exactly that name, else the matching pattern that
fixes the most bytes, and of several such the first. -/
def find? (cs : ConfigCatalog) (name : String) : Option CacheConfig :=
  match cs.configs[name]? with
  | some c => some c
  | none => (cs.toList.foldl (better name) none).map Prod.snd

/-- The first thing wrong with any of the configurations, in the order of their names. -/
def validate (cs : ConfigCatalog) : Except Error Unit :=
  cs.toList.forM CacheConfig.validate

end ConfigCatalog

end NearCache
