import NearCache.Config.Catalog
import NearCache.Config.Coherence
import NearCache.Json.Form

/-!
JSON forms of the configuration.
-/

namespace NearCache

/-- A signed 64-bit number. -/
def Draft.int64? (d : Draft) : Option Int64 :=
  (d.int? Int64.minValue.toInt Int64.maxValue.toInt).map Int64.ofInt

/-- An unsigned 64-bit number. -/
def Draft.uint64? (d : Draft) : Option UInt64 :=
  (d.nat? UInt64.size).map UInt64.ofNat

/-- The form of a value that may be missing. -/
def optionJson {α : Type} [JsonForm α] : Option α → Json
  | none => .null
  | some a => JsonForm.toJson a

instance : JsonForm EvictionPolicy where
  toJson p := .string p.name
  ofDraft? d := do
    match ← d.variant? with
    | "lru" => return .lru
    | "random" => return .random
    | "none" => return .none
    | _ => failure

instance : JsonForm InMemoryFormat where
  toJson f := .string f.name
  ofDraft? d := do
    match ← d.variant? with
    | "binary" => return .binary
    | "object" => return .object
    | _ => failure

instance : JsonForm CacheConfig where
  toJson c := .object
    [("name", .string c.name), ("max_size", .int c.maxSize.toNat),
      ("eviction_policy", JsonForm.toJson c.eviction), ("time_to_live", optionJson c.timeToLive),
      ("max_idle", optionJson c.maxIdle), ("in_memory_format", JsonForm.toJson c.format),
      ("invalidate_on_change", .bool c.invalidateOnChange)]
  ofDraft? d := do
    match ← d.fields? ["name", "max_size", "eviction_policy", "time_to_live", "max_idle",
        "in_memory_format", "invalidate_on_change"] with
    | [name, maxSize, eviction, timeToLive, maxIdle, format, invalidate] =>
      let name ← Draft.required? Draft.text? name
      let maxSize ← Draft.required? Draft.uint64? maxSize
      let eviction ← Draft.required? JsonForm.ofDraft? eviction
      let timeToLive ← Draft.optional? JsonForm.ofDraft? timeToLive
      let maxIdle ← Draft.optional? JsonForm.ofDraft? maxIdle
      let format ← Draft.required? JsonForm.ofDraft? format
      let invalidate ← Draft.required? Draft.bool? invalidate
      return ⟨name, maxSize, eviction, timeToLive, maxIdle, format, invalidate⟩
    | _ => none

instance : JsonForm ConfigCatalog where
  toJson cs := .object [("configs",
    .object (cs.configs.toList.map fun entry => (entry.1, JsonForm.toJson entry.2)))]
  ofDraft? d := do
    match ← d.fields? ["configs"] with
    | [configs] =>
      let members ← Draft.required? Draft.members? configs
      let entries ← members.mapM fun m => (JsonForm.ofDraft? m.2).map fun c => (m.1, c)
      return ⟨entries.foldl (fun cs entry => cs.insert entry.1 entry.2) ∅⟩
    | _ => none

instance : JsonForm CoherenceConfig where
  toJson c := .object
    [("max_tolerated_miss_count", .int c.maxToleratedMisses.toInt),
      ("reconciliation_interval_secs", .int c.reconciliationSecs.toInt),
      ("min_reconciliation_interval_secs", .int c.minReconciliationSecs.toInt),
      ("batch_invalidation_high_water_mark", .int c.batchHighWaterMark.toNat),
      ("repair_poll_interval", JsonForm.toJson c.repairPoll),
      ("member_request_timeout", JsonForm.toJson c.memberTimeout),
      ("shutdown_timeout", JsonForm.toJson c.shutdownTimeout)]
  ofDraft? d := do
    match ← d.fields? ["max_tolerated_miss_count", "reconciliation_interval_secs",
        "min_reconciliation_interval_secs", "batch_invalidation_high_water_mark",
        "repair_poll_interval", "member_request_timeout", "shutdown_timeout"] with
    | [misses, secs, minSecs, highWater, poll, memberTimeout, shutdownTimeout] =>
      let misses ← Draft.required? Draft.int64? misses
      let secs ← Draft.required? Draft.int64? secs
      let minSecs ← Draft.required? Draft.int64? minSecs
      let highWater ← Draft.required? Draft.uint64? highWater
      let poll ← Draft.required? JsonForm.ofDraft? poll
      let memberTimeout ← Draft.required? JsonForm.ofDraft? memberTimeout
      let shutdownTimeout ← Draft.required? JsonForm.ofDraft? shutdownTimeout
      return ⟨misses, secs, minSecs, highWater, poll, memberTimeout, shutdownTimeout⟩
    | _ => none

end NearCache
