import NearCache.Duration
import NearCache.Error
import NearCache.Text.Blank
import NearCache.Text.Record

/-!
Settings of gap detection and of the reconciliation worker, shared by all caches of a client.
-/

namespace NearCache

/-- Settings of coherence keeping. -/
structure CoherenceConfig where
  /-- Missed invalidations tolerated in a row before records of a partition turn stale. -/
  maxToleratedMisses : Int64
  /-- Seconds between anti-entropy rounds; zero turns them off. -/
  reconciliationSecs : Int64
  /-- Lower bound on a nonzero number of seconds between rounds. -/
  minReconciliationSecs : Int64
  /-- Size from which a batch of invalidations clears the whole cache. -/
  batchHighWaterMark : UInt64
  /-- Pause of the worker between two passes. -/
  repairPoll : Duration
  /-- How long one member may take to report. -/
  memberTimeout : Duration
  /-- How long a shutdown waits for the worker. -/
  shutdownTimeout : Duration
deriving DecidableEq, Repr

namespace CoherenceConfig

/-- The settings where nothing else is given. -/
def default : CoherenceConfig where
  maxToleratedMisses := 10
  reconciliationSecs := 60
  minReconciliationSecs := 30
  batchHighWaterMark := 100
  repairPoll := .ofMillis 1000
  memberTimeout := .ofSecs 60
  shutdownTimeout := .ofSecs 120

instance : Inhabited CoherenceConfig := ⟨default⟩

/-- A signed 64-bit number between blanks. -/
def readInt64? (s : String) : Option Int64 :=
  (readInt? Int64.minValue.toInt Int64.maxValue.toInt (trimBlank s.toList)).map Int64.ofInt

/-- An unsigned 64-bit number between blanks. -/
def readUInt64? (s : String) : Option UInt64 :=
  (readNat? (UInt64.size - 1) (trimBlank s.toList)).map UInt64.ofNat

/-- The settings that a lookup by variable name gives. A variable that is missing or does not hold a
number leaves its default. -/
def ofLookup (lookup : String → Option String) : CoherenceConfig where
  maxToleratedMisses :=
    ((lookup "DRIFTLINE_MAX_TOLERATED_MISS_COUNT").bind readInt64?).getD 10
  reconciliationSecs :=
    ((lookup "DRIFTLINE_RECONCILIATION_INTERVAL_SECS").bind readInt64?).getD 60
  minReconciliationSecs :=
    ((lookup "DRIFTLINE_MIN_RECONCILIATION_INTERVAL_SECS").bind readInt64?).getD 30
  batchHighWaterMark :=
    ((lookup "DRIFTLINE_BATCH_INVALIDATION_HIGH_WATER_MARK").bind readUInt64?).getD 100
  repairPoll :=
    .ofMillis (((lookup "DRIFTLINE_REPAIR_POLL_INTERVAL_MS").bind readUInt64?).getD 1000)
  memberTimeout :=
    .ofSecs (((lookup "DRIFTLINE_MEMBER_REQUEST_TIMEOUT_SECS").bind readUInt64?).getD 60)
  shutdownTimeout :=
    .ofSecs (((lookup "DRIFTLINE_SHUTDOWN_TIMEOUT_SECS").bind readUInt64?).getD 120)

/-- The time between anti-entropy rounds, unless they are off. -/
def interval? (c : CoherenceConfig) : Option Duration :=
  if c.reconciliationSecs > 0 then some (.ofSecs c.reconciliationSecs.toUInt64) else none

/-- The first setting that cannot be used. -/
def validate (c : CoherenceConfig) : Except Error Unit := do
  if c.maxToleratedMisses < 0 then
    throw (.config (.invalidValue "max_tolerated_miss_count" (intText c.maxToleratedMisses.toInt)
      "max-tolerated-miss-count cannot be negative"))
  if c.minReconciliationSecs < 0 then
    throw (.config (.invalidValue "min_reconciliation_interval_secs"
      (intText c.minReconciliationSecs.toInt) "minimum reconciliation interval cannot be negative"))
  if c.reconciliationSecs < 0 ∨
      (c.reconciliationSecs > 0 ∧ c.reconciliationSecs < c.minReconciliationSecs) then
    throw (.config (.invalidValue "reconciliation_interval_secs" (intText c.reconciliationSecs.toInt)
      ("reconciliation interval must be 0 (disabled) or at least " ++
        intText c.minReconciliationSecs.toInt ++ " seconds")))
  if c.batchHighWaterMark = 0 then
    throw (.config (.invalidValue "batch_invalidation_high_water_mark" "0"
      "high-water mark must be positive"))
  if c.repairPoll.isZero then
    throw (.config (.invalidValue "repair_poll_interval" c.repairPoll.text
      "repair poll interval must be positive"))
  if c.memberTimeout.isZero then
    throw (.config (.invalidValue "member_request_timeout" c.memberTimeout.text
      "member request timeout must be positive"))

/-- The diagnostic text. -/
def shown (c : CoherenceConfig) : String :=
  recordText "CoherenceConfig"
    [("max_tolerated_miss_count", intText c.maxToleratedMisses.toInt),
      ("reconciliation_interval_secs", intText c.reconciliationSecs.toInt),
      ("min_reconciliation_interval_secs", intText c.minReconciliationSecs.toInt),
      ("batch_invalidation_high_water_mark", natText c.batchHighWaterMark.toNat),
      ("repair_poll_interval", c.repairPoll.text),
      ("member_request_timeout", c.memberTimeout.text),
      ("shutdown_timeout", c.shutdownTimeout.text)]

end CoherenceConfig

end NearCache
