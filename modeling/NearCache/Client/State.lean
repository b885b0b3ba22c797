import NearCache.Cluster.Round
import NearCache.Config.Catalog
import NearCache.Reconcile

/-!
A client and the cluster it talks to, at one instant. The client has a directory of its caches by
name, a worker that reconciles them, and a flag that says whether it is closed. Caches and workers
have numbers, so that one that left the directory can still be spoken of.
-/

namespace NearCache

/-- Number of a reconciliation worker. -/
abbrev WorkerId := Nat

/-- What a worker is about to do. -/
inductive WorkerStage
  /-- To look for the stop signal, and to begin a pass. -/
  | ready
  /-- To wait for the reports of an anti-entropy round over these caches. -/
  | fetching (caches : List CacheId) (round : Round)
  /-- To pause until an instant, or until the stop signal. -/
  | sleeping (due : Nat)
  /-- Nothing: it has stopped. -/
  | exited
  /-- Nothing: it was stopped from outside. -/
  | aborted
deriving Repr

/-- A reconciliation worker. -/
structure Worker where
  /-- Whether it was told to stop. -/
  signalled : Bool
  /-- When its last anti-entropy round ended, or when it started. -/
  lastRound : Nat
  stage : WorkerStage
deriving Repr

namespace Worker

/-- Whether the worker has stopped, by itself or from outside. -/
def isFinished (w : Worker) : Bool :=
  match w.stage with
  | .exited | .aborted => true
  | _ => false

end Worker

/-- Counts of what the workers have done. -/
structure Metrics where
  /-- Passes that came to their end. -/
  iterations : Nat
  /-- Partitions whose floor was raised. -/
  partitionsRepaired : Nat
  /-- Anti-entropy rounds that came to their end. -/
  antiEntropyRuns : Nat
  /-- Members that failed to report in those rounds. -/
  memberFailures : Nat
  /-- Passes that a fault stopped. -/
  failedIterations : Nat
deriving DecidableEq, Repr

namespace Metrics

/-- Nothing was done yet. -/
def zero : Metrics := ⟨0, 0, 0, 0, 0⟩

/-- All counts in order. -/
def toList (m : Metrics) : List Nat :=
  [m.iterations, m.partitionsRepaired, m.antiEntropyRuns, m.memberFailures, m.failedIterations]

/-- The diagnostic text. -/
def shown (m : Metrics) : String :=
  recordText "ReconciliationSnapshot"
    [("iterations", natText m.iterations), ("partitions_repaired", natText m.partitionsRepaired),
      ("anti_entropy_runs", natText m.antiEntropyRuns),
      ("member_failures", natText m.memberFailures),
      ("failed_iterations", natText m.failedIterations)]

end Metrics

/-- A client and its cluster. -/
structure Client where
  /-- Milliseconds on the clock that all waiting goes by. -/
  now : Nat
  cluster : Cluster
  configs : ConfigCatalog
  coherence : CoherenceConfig
  caches : Std.ExtTreeMap CacheId Cache
  nextCache : CacheId
  /-- The caches of the client by name. -/
  directory : Std.ExtTreeMap String CacheId
  /-- Whether the client was shut down. -/
  closed : Bool
  workers : Std.ExtTreeMap WorkerId Worker
  nextWorker : WorkerId
  /-- The worker that a start or a shutdown finds. -/
  running : Option WorkerId
  metrics : Metrics

namespace Client

/-- A client without caches. -/
def create (configs : ConfigCatalog) (coherence : CoherenceConfig) (cluster : Cluster) : Client where
  now := 0
  cluster := cluster
  configs := configs
  coherence := coherence
  caches := ∅
  nextCache := 0
  directory := ∅
  closed := false
  workers := ∅
  nextWorker := 0
  running := none
  metrics := .zero

/-- A client without caches, unless the configuration cannot be used. -/
def create? (configs : ConfigCatalog) (coherence : CoherenceConfig) (cluster : Cluster) :
    Except Error Client := do
  configs.validate
  coherence.validate
  return create configs coherence cluster

/-- Replaces the cluster. -/
def withCluster (s : Client) (c : Cluster) : Client :=
  { s with cluster := c }

/-- Changes one cache. -/
def modifyCache (s : Client) (id : CacheId) (change : Cache → Cache) : Client :=
  { s with caches := s.caches.modify id change }

/-- Changes one worker. -/
def modifyWorker (s : Client) (id : WorkerId) (change : Worker → Worker) : Client :=
  { s with workers := s.workers.modify id change }

/-- Sets what a worker is about to do. -/
def setStage (s : Client) (id : WorkerId) (stage : WorkerStage) : Client :=
  s.modifyWorker id fun w => { w with stage := stage }

/-- Creates a cache outside the directory. -/
def addCache (s : Client) (cache : Cache) : Client × CacheId :=
  ({ s with caches := s.caches.insert s.nextCache cache, nextCache := s.nextCache + 1 }, s.nextCache)

/-- The numbers of the caches in the directory, in the order of their names. -/
def registered (s : Client) : List CacheId :=
  s.directory.toList.map Prod.snd

/-- The caches of some numbers. -/
def cachesOf (s : Client) (ids : List CacheId) : List Cache :=
  ids.filterMap (s.caches[·]?)

/-- Puts caches back under their numbers. -/
def putBack (s : Client) (ids : List CacheId) (caches : List Cache) : Client :=
  { s with caches := (ids.zip caches).foldl (fun m p => m.insert p.1 p.2) s.caches }

/-- Whether a worker is there for a start or a shutdown to find, and has not stopped. -/
def isRunning (s : Client) : Bool :=
  match s.running.bind (s.workers[·]?) with
  | some w => !w.isFinished
  | none => false

/-- Delivers an event to caches, one after the other. A number that belongs to no cache any more is
passed over. -/
def deliverTo (s : Client) (event : Event) : List CacheId → Attempt Client Unit
  | [] => (s, .ok ())
  | id :: rest =>
    match s.caches[id]? with
    | none => s.deliverTo event rest
    | some cache =>
      let applied := cache.onEvent event
      let s := s.modifyCache id fun _ => applied.1
      match applied.2 with
      | .ok () => s.deliverTo event rest
      | .error fault => (s, .error fault)

/-- Delivers an event for a cache name to every handler bound to a registration of that name, and
counts them. -/
def deliver (s : Client) (name : String) (event : Event) : Attempt Client Nat :=
  let ids := s.cluster.handlers name
  let delivered := s.deliverTo event ids
  (delivered.1, delivered.2.map fun _ => ids.length)

/-- The diagnostic text of the reconciliation task. -/
def taskShown (s : Client) : String :=
  openRecordText "ReconciliationTask"
    [("config", s.coherence.shown), ("running", boolText s.isRunning),
      ("metrics", s.metrics.shown)]

end Client

end NearCache
