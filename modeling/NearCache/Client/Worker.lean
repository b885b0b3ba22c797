import NearCache.Client.State

/-!
The reconciliation worker. It makes one pass after another with a pause between them. A pass repairs
gaps in every cache that is coherent when it begins; if an anti-entropy round is due, it then asks
all members for their reports and applies them to the same caches. A fault ends the pass but not the
worker. Between its stages the worker waits, and other activities take their turns.
-/

namespace NearCache

namespace Client

/-- Repairs gaps in some caches and counts the partitions repaired. -/
def repairGaps (s : Client) : List CacheId → Client × Nat
  | [] => (s, 0)
  | id :: rest =>
    match s.caches[id]? with
    | none => s.repairGaps rest
    | some cache =>
      let repaired := cache.repairGaps
      let others := (s.modifyCache id fun _ => repaired.1).repairGaps rest
      (others.1, repaired.2 + others.2)

/-- The caches in the directory that are coherent now. -/
def coherentCaches (s : Client) : List CacheId :=
  s.registered.filter fun id => (s.caches[id]?).any Cache.isCoherent

/-- Ends a pass and begins the pause after it. -/
def endPass (s : Client) (id : WorkerId) : Client :=
  { s.setStage id (.sleeping (s.now + boundedPause s.coherence.repairPoll.toTicks)) with
    metrics.iterations := s.metrics.iterations + 1 }

/-- Ends a pass that a fault stopped, and begins the pause after it. -/
def failPass (s : Client) (id : WorkerId) : Client :=
  { s.setStage id (.sleeping (s.now + boundedPause s.coherence.repairPoll.toTicks)) with
    metrics.failedIterations := s.metrics.failedIterations + 1 }

/-- Whether enough time has passed since a worker's last round for another one. -/
def roundIsDue (s : Client) (w : Worker) : Bool :=
  match s.coherence.interval? with
  | none => false
  | some interval => interval.toNanos ≤ (s.now - w.lastRound) * 1000000

/-- Begins a pass: repairs gaps, and asks the members if a round is due. -/
def beginPass (s : Client) (id : WorkerId) (w : Worker) : Client :=
  let ids := s.coherentCaches
  let repaired := s.repairGaps ids
  let s := { repaired.1 with
    metrics.partitionsRepaired := repaired.1.metrics.partitionsRepaired + repaired.2 }
  if ids.isEmpty || !s.roundIsDue w then s.endPass id
  else
    let names := (s.cachesOf ids).map Cache.name
    let asked := s.cluster.beginRound s.now names s.coherence.memberTimeout
    let s := s.withCluster asked.1
    match asked.2 with
    | .ok round => s.setStage id (.fetching ids round)
    | .error _ => s.failPass id

/-- Applies the reports of a round that is over, and ends the pass. -/
def finishRound (s : Client) (id : WorkerId) (ids : List CacheId) (round : Round) : Client :=
  let ids := ids.filter s.caches.contains
  let applied := applyReports (s.cachesOf ids) round.reports
  let s := s.putBack ids applied.1
  match applied.2 with
  | .error _ => s.failPass id
  | .ok () =>
    let s := s.modifyWorker id fun w => { w with lastRound := s.now }
    let s := { s with
      metrics.antiEntropyRuns := s.metrics.antiEntropyRuns + 1
      metrics.memberFailures := s.metrics.memberFailures + round.failures }
    s.endPass id

/-- Whether a worker can go on at present, at least in part. One that has stopped need not wait. -/
def workerIsReady (s : Client) (id : WorkerId) : Bool :=
  match s.workers[id]? with
  | none => true
  | some w =>
    match w.stage with
    | .ready | .exited | .aborted => true
    | .fetching _ round => round.isReady s.now
    | .sleeping due => w.signalled || due ≤ s.now

/-- Takes the replies of a round that have come, and says whether that ended the round. -/
def takeReplies (s : Client) (id : WorkerId) (ids : List CacheId) (round : Round) : Client × Bool :=
  match round.poll s.cluster s.now with
  | .error _ => (s.failPass id, true)
  | .ok round =>
    if round.isDone then (s.finishRound id ids round, true)
    else (s.setStage id (.fetching ids round), false)

/-- One step of a worker that can go on, and whether it is past the stage that it was in. -/
def stepWorker (s : Client) (id : WorkerId) : Client × Bool :=
  match s.workers[id]? with
  | none => (s, false)
  | some w =>
    match w.stage with
    | .ready => (if w.signalled then s.setStage id .exited else s.beginPass id w, true)
    | .fetching ids round => s.takeReplies id ids round
    | .sleeping _ => (s.setStage id (if w.signalled then .exited else .ready), true)
    | .exited | .aborted => (s, false)

/-- The instant at which a waiting worker goes on by itself. -/
def workerWakes (s : Client) (id : WorkerId) : Option Nat :=
  match (s.workers[id]?).map Worker.stage with
  | some (.fetching _ round) => round.wakes
  | some (.sleeping due) => some due
  | _ => none

/-- Starts a worker, unless one is running, and says whether it did. Its anti-entropy clock starts here
and not at its first turn, which is at the same instant: no time passes before a ready worker had its
turn. -/
def startWorker (s : Client) : Client × Bool :=
  if s.isRunning then (s, false)
  else
    ({ s with
        workers := s.workers.insert s.nextWorker ⟨false, s.now, .ready⟩
        nextWorker := s.nextWorker + 1
        running := some s.nextWorker }, true)

end Client

end NearCache
