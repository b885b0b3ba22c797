import Mathlib.Algebra.GroupWithZero.Nat
import Mathlib.Data.List.Nodup
import NearCache.Proofs.Client.Books

/-!
One step of the worker. A pass begins with the repair of gaps in all caches that are coherent then; the
members are asked next if a round is due, and the pass ends when their reports are applied, or at once,
or when a fault stops it.
-/

namespace NearCache

namespace Client

variable (s : Client)

section Gaps

/-- The partitions that missed too much, over some caches. -/
def gapsOf (ids : List CacheId) : Nat :=
  ((s.cachesOf ids).map fun cache => cache.repairGaps.2).sum

/-- Repairing gaps changes nothing but caches. -/
theorem repairGaps_eq (ids : List CacheId) :
    ∃ caches, (s.repairGaps ids).1 = { s with caches := caches } := by
  induction ids generalizing s with
  | nil => exact ⟨s.caches, rfl⟩
  | cons id rest ih =>
      unfold repairGaps
      cases s.caches[id]? with
      | none => exact ih s
      | some cache =>
          obtain ⟨caches, hRest⟩ := ih (s.modifyCache id fun _ => cache.repairGaps.1)
          exact ⟨caches, hRest⟩

theorem cachesOf_modifyCache {id : CacheId} {ids : List CacheId} (h : id ∉ ids)
    (change : Cache → Cache) : (s.modifyCache id change).cachesOf ids = s.cachesOf ids :=
  List.filterMap_congr fun other hm => s.getElem?_modifyCache_of_ne other id change fun hSame =>
    h (hSame ▸ hm)

/-- Repairing gaps reaches each cache listed, once. -/
theorem getElem?_repairGaps {ids : List CacheId} (h : ids.Nodup) (id : CacheId) :
    (s.repairGaps ids).1.caches[id]? =
      if id ∈ ids then s.caches[id]?.map fun cache => cache.repairGaps.1 else s.caches[id]? := by
  induction ids generalizing s with
  | nil => rfl
  | cons first rest ih =>
      rw [List.nodup_cons] at h
      unfold repairGaps
      cases hFirst : s.caches[first]? with
      | none =>
          rw [ih s h.2]
          by_cases hSame : id = first
          · simp [hSame, hFirst]
          · simp [hSame]
      | some cache =>
          rw [ih _ h.2, s.getElem?_modifyCache]
          by_cases hSame : first = id
          · simp [← hSame, hFirst, h.1]
          · simp [hSame, Ne.symm hSame]

theorem count_repairGaps {ids : List CacheId} (h : ids.Nodup) :
    (s.repairGaps ids).2 = s.gapsOf ids := by
  induction ids generalizing s with
  | nil => rfl
  | cons first rest ih =>
      rw [List.nodup_cons] at h
      unfold repairGaps
      cases hFirst : s.caches[first]? with
      | none =>
          have hOthers : s.cachesOf (first :: rest) = s.cachesOf rest :=
            List.filterMap_cons_none hFirst
          rw [gapsOf, hOthers]
          exact ih s h.2
      | some cache =>
          have hOthers : s.cachesOf (first :: rest) = cache :: s.cachesOf rest :=
            List.filterMap_cons_some hFirst
          rw [gapsOf, hOthers, List.map_cons, List.sum_cons]
          dsimp only
          rw [ih _ h.2, gapsOf, s.cachesOf_modifyCache h.1]

end Gaps

section Directory

variable {s} {id : CacheId}

theorem mem_coherentCaches :
    id ∈ s.coherentCaches ↔
      id ∈ s.registered ∧ ∃ cache, s.caches[id]? = some cache ∧ cache.isCoherent = true := by
  rw [coherentCaches, List.mem_filter]
  cases s.caches[id]? <;> simp

/-- Each cache is in the directory under one name. -/
def Filed (directory : Std.ExtTreeMap String CacheId) : Prop :=
  ∀ (name other : String) (id : CacheId), directory[name]? = some id → directory[other]? = some id →
    name = other

theorem nodup_registered (h : Filed s.directory) : s.registered.Nodup := by
  refine List.Nodup.map_on ?_ (nodup_toList s.directory)
  rintro ⟨name, id⟩ hm ⟨other, id'⟩ hm' (rfl : id = id')
  rw [Std.ExtTreeMap.mem_toList_iff_getElem?_eq_some] at hm hm'
  rw [h name other id hm hm']

theorem nodup_coherentCaches (h : Filed s.directory) : s.coherentCaches.Nodup :=
  (nodup_registered h).filter _

end Directory

section Steps

/-- The pause after a pass that ends now. -/
def pause : WorkerStage :=
  .sleeping (s.now + boundedPause s.coherence.repairPoll.toTicks)

/-- A round with its last replies, if they are there now and all reports can be applied. -/
def roundOver? (ids : List CacheId) (asked : Round) : Option Round :=
  match asked.poll s.cluster s.now with
  | .error _ => none
  | .ok round =>
    match round.isDone, (applyReports (s.cachesOf (ids.filter s.caches.contains)) round.reports).2 with
    | true, .ok () => some round
    | _, _ => none

/-- All that a step of a worker leaves, apart from the caches and the cluster: its own entry and the
counts are these, and nothing else has changed. -/
structure Leaves (w : WorkerId) (worker : Worker) (metrics : Metrics) (s' : Client) : Prop where
  now : s'.now = s.now
  coherence : s'.coherence = s.coherence
  directory : s'.directory = s.directory
  nextWorker : s'.nextWorker = s.nextWorker
  running : s'.running = s.running
  workers : ∀ other, s'.workers[other]? = if other = w then some worker else s.workers[other]?
  metrics : s'.metrics = metrics

/-- The client after gap repair. -/
def mended : Client :=
  { s with
    caches := (s.repairGaps s.coherentCaches).1.caches
    metrics.partitionsRepaired := s.metrics.partitionsRepaired + (s.repairGaps s.coherentCaches).2 }

/-- The step begins a pass, which has repaired gaps before anything else. -/
structure Begins (worker : Worker) (s' : Client) : Prop where
  ready : worker.stage = .ready
  unsignalled : worker.signalled = false
  caches : s'.caches = s.mended.caches

/-- A round is due for some cache. -/
def AsksMembers (worker : Worker) : Prop :=
  s.coherentCaches ≠ [] ∧ s.roundIsDue worker = true

/-- What a step of a worker can be. -/
inductive Work (w : WorkerId) (worker : Worker) (s' : Client) : Prop
  /-- It was told to stop, and stops. -/
  | quit (hSignalled : worker.signalled = true)
      (hStage : worker.stage = .ready ∨ ∃ due, worker.stage = .sleeping due)
      (hLeft : s.Leaves w { worker with stage := .exited } s.metrics s')
  /-- The pause is over. -/
  | rouse (due : Nat) (hStage : worker.stage = .sleeping due)
      (hLeft : s.Leaves w { worker with stage := .ready } s.metrics s')
  /-- A pass begins and ends, as no round is due. -/
  | rest (hBegins : s.Begins worker s') (hIdle : ¬s.AsksMembers worker)
      (hCluster : s'.cluster = s.cluster)
      (hLeft : s.Leaves w { worker with stage := s.pause }
        { s.mended.metrics with iterations := s.metrics.iterations + 1 } s')
  /-- A pass begins, and the members are asked. -/
  | ask (hBegins : s.Begins worker s') (hDue : s.AsksMembers worker) (ids : List CacheId)
      (asked : Round)
      (hLeft : s.Leaves w { worker with stage := .fetching ids asked } s.mended.metrics s')
  /-- A pass begins, and a fault stops it while the members are asked. -/
  | fault (hBegins : s.Begins worker s') (hDue : s.AsksMembers worker)
      (hLeft : s.Leaves w { worker with stage := s.pause }
        { s.mended.metrics with failedIterations := s.metrics.failedIterations + 1 } s')
  /-- Not all replies are there. -/
  | await (ids : List CacheId) (asked round : Round) (hStage : worker.stage = .fetching ids asked)
      (hOpen : s.roundOver? ids asked = none)
      (hLeft : s.Leaves w { worker with stage := .fetching ids round } s.metrics s')
  /-- A fault ends the pass, in a member or in a report. -/
  | fail (ids : List CacheId) (asked : Round) (hStage : worker.stage = .fetching ids asked)
      (hOpen : s.roundOver? ids asked = none)
      (hLeft : s.Leaves w { worker with stage := s.pause }
        { s.metrics with failedIterations := s.metrics.failedIterations + 1 } s')
  /-- All reports are applied. -/
  | finish (ids : List CacheId) (asked round : Round) (hStage : worker.stage = .fetching ids asked)
      (hOver : s.roundOver? ids asked = some round)
      (hLeft : s.Leaves w { worker with stage := s.pause, lastRound := s.now }
        { s.metrics with
          iterations := s.metrics.iterations + 1
          antiEntropyRuns := s.metrics.antiEntropyRuns + 1
          memberFailures := s.metrics.memberFailures + round.failures } s')

variable {s} {w : WorkerId} {worker : Worker}

theorem leaves_modifyWorker (hWorker : s.workers[w]? = some worker) (change : Worker → Worker)
    (caches : Std.ExtTreeMap CacheId Cache) (cluster : Cluster) (metrics : Metrics) :
    s.Leaves w (change worker) metrics
      { s.modifyWorker w change with caches := caches, cluster := cluster, metrics := metrics } where
  now := rfl
  coherence := rfl
  directory := rfl
  nextWorker := rfl
  running := rfl
  workers other := by
    have hLookup := congrFun (lookup_modify s.workers w change) other
    rw [Function.update_apply, hWorker] at hLookup
    exact hLookup
  metrics := rfl

theorem leaves_setStage (hWorker : s.workers[w]? = some worker) (stage : WorkerStage)
    (caches : Std.ExtTreeMap CacheId Cache) (cluster : Cluster) (metrics : Metrics) :
    s.Leaves w { worker with stage := stage } metrics
      { s.setStage w stage with caches := caches, cluster := cluster, metrics := metrics } :=
  leaves_modifyWorker hWorker (fun w => { w with stage := stage }) caches cluster metrics

theorem Leaves.trans {worker' : Worker} {metrics metrics' : Metrics} {s' s'' : Client}
    (h : s.Leaves w worker metrics s') (h' : s'.Leaves w worker' metrics' s'') :
    s.Leaves w worker' metrics' s'' where
  now := h'.now.trans h.now
  coherence := h'.coherence.trans h.coherence
  directory := h'.directory.trans h.directory
  nextWorker := h'.nextWorker.trans h.nextWorker
  running := h'.running.trans h.running
  workers other := by
    rw [h'.workers, h.workers]
    split_ifs <;> rfl
  metrics := h'.metrics

theorem Work.leaves {s' : Client} (h : s.Work w worker s') :
    ∃ worker' metrics, s.Leaves w worker' metrics s' := by
  cases h with
  | quit _ _ hLeft | rouse _ _ hLeft | rest _ _ _ hLeft | ask _ _ _ _ hLeft | fault _ _ hLeft
  | await _ _ _ _ _ hLeft | fail _ _ _ _ hLeft | finish _ _ _ _ _ hLeft => exact ⟨_, _, hLeft⟩

theorem beginPass_eq (w : WorkerId) (worker : Worker) :
    s.beginPass w worker =
      if s.coherentCaches.isEmpty || !s.roundIsDue worker then s.mended.endPass w
      else
        let names := (s.mended.cachesOf s.coherentCaches).map Cache.name
        let asked := s.cluster.beginRound s.now names s.coherence.memberTimeout
        match asked.2 with
        | .ok round => (s.mended.withCluster asked.1).setStage w (.fetching s.coherentCaches round)
        | .error _ => (s.mended.withCluster asked.1).failPass w := by
  have hRepaired := s.repairGaps_eq s.coherentCaches
  unfold beginPass mended
  dsimp only
  generalize s.repairGaps s.coherentCaches = repaired at hRepaired
  obtain ⟨s₁, count⟩ := repaired
  obtain ⟨caches, rfl⟩ : ∃ caches, s₁ = { s with caches := caches } := hRepaired
  rfl

/-- A pass that begins repairs gaps, and goes on with nobody asked, with the members asked, or with a
fault. -/
theorem work_beginPass (hWorker : s.workers[w]? = some worker) (hReady : worker.stage = .ready)
    (hUnsignalled : worker.signalled = false) : s.Work w worker (s.beginPass w worker) := by
  have hBegins : ∀ s' : Client, s'.caches = s.mended.caches → s.Begins worker s' :=
    fun s' h => ⟨hReady, hUnsignalled, h⟩
  have hAsks : (s.coherentCaches.isEmpty || !s.roundIsDue worker) = false ↔ s.AsksMembers worker := by
    simp [AsksMembers]
  rw [beginPass_eq]
  cases hIdle : s.coherentCaches.isEmpty || !s.roundIsDue worker with
  | true =>
      have hNotDue : ¬s.AsksMembers worker := by
        rw [← hAsks, hIdle]
        exact Bool.noConfusion
      exact .rest (hBegins _ rfl) hNotDue rfl (leaves_setStage hWorker _ _ _ _)
  | false =>
      have hDue : s.AsksMembers worker := hAsks.mp hIdle
      rw [if_neg Bool.noConfusion]
      dsimp only
      split
      next asked hAsked =>
        exact .ask (hBegins _ rfl) hDue _ asked (leaves_setStage hWorker _ _ _ _)
      next fault hFault => exact .fault (hBegins _ rfl) hDue (leaves_setStage hWorker _ _ _ _)

theorem work_finishRound (hWorker : s.workers[w]? = some worker) {ids : List CacheId}
    {asked round : Round} (hStage : worker.stage = .fetching ids asked)
    (hPolled : asked.poll s.cluster s.now = .ok round) (hDone : round.isDone = true) :
    s.Work w worker (s.finishRound w ids round) := by
  unfold finishRound
  dsimp only
  cases hApplied : (applyReports (s.cachesOf (ids.filter s.caches.contains)) round.reports).2 with
  | error fault =>
      have hOpen : s.roundOver? ids asked = none := by
        simp only [roundOver?, hPolled, hDone, hApplied]
      exact .fail ids asked hStage hOpen (leaves_setStage hWorker _ _ _ _)
  | ok done =>
      have hOver : s.roundOver? ids asked = some round := by
        simp only [roundOver?, hPolled, hDone, hApplied]
      have hDated := leaves_modifyWorker hWorker (fun w => { w with lastRound := s.now })
        (s.putBack (ids.filter s.caches.contains)
          (applyReports (s.cachesOf (ids.filter s.caches.contains)) round.reports).1).caches
        s.cluster
        { s.metrics with
          antiEntropyRuns := s.metrics.antiEntropyRuns + 1
          memberFailures := s.metrics.memberFailures + round.failures }
      have hKnown := (hDated.workers w).trans (if_pos rfl)
      exact .finish ids asked round hStage hOver
        (hDated.trans (leaves_setStage hKnown _ _ _ _))

theorem work_takeReplies (hWorker : s.workers[w]? = some worker) {ids : List CacheId} {asked : Round}
    (hStage : worker.stage = .fetching ids asked) :
    s.Work w worker (s.takeReplies w ids asked).1 := by
  unfold takeReplies
  cases hPolled : asked.poll s.cluster s.now with
  | error fault =>
      have hOpen : s.roundOver? ids asked = none := by rw [roundOver?, hPolled]
      exact .fail ids asked hStage hOpen (leaves_setStage hWorker _ _ _ _)
  | ok round =>
      cases hDone : round.isDone with
      | false =>
          have hOpen : s.roundOver? ids asked = none := by simp only [roundOver?, hPolled, hDone]
          simp only [hDone]
          exact .await ids asked round hStage hOpen (leaves_setStage hWorker _ _ _ _)
      | true =>
          simp only [hDone]
          exact work_finishRound hWorker hStage hPolled hDone

/-- A step of a worker that has not stopped is one of these. -/
theorem work_stepWorker (hWorker : s.workers[w]? = some worker) (hAlive : worker.isFinished = false) :
    s.Work w worker (s.stepWorker w).1 := by
  unfold stepWorker
  rw [hWorker]
  dsimp only
  cases hStage : worker.stage with
  | ready =>
      cases hSignalled : worker.signalled with
      | true => exact .quit hSignalled (Or.inl hStage) (leaves_setStage hWorker _ _ _ _)
      | false => exact work_beginPass hWorker hStage hSignalled
  | fetching ids asked => exact work_takeReplies hWorker hStage
  | sleeping due =>
      cases hSignalled : worker.signalled with
      | true => exact .quit hSignalled (Or.inr ⟨due, hStage⟩) (leaves_setStage hWorker _ _ _ _)
      | false => exact .rouse due hStage (leaves_setStage hWorker _ _ _ _)
  | exited => simp [Worker.isFinished, hStage] at hAlive
  | aborted => simp [Worker.isFinished, hStage] at hAlive

/-- Gap repair at the beginning of a pass reaches every cache in the directory that is coherent then, and
no other. -/
theorem getElem?_mended (hFiled : Filed s.directory) {name : String} {id : CacheId} {cache : Cache}
    (hEntry : s.directory[name]? = some id) (hCache : s.caches[id]? = some cache) :
    s.mended.caches[id]? = some (if cache.isCoherent then cache.repairGaps.1 else cache) := by
  rw [mended, getElem?_repairGaps s (nodup_coherentCaches hFiled), hCache]
  have hMember : id ∈ s.coherentCaches ↔ cache.isCoherent = true := by
    rw [mem_coherentCaches, hCache]
    simp [mem_registered.mpr ⟨name, hEntry⟩]
  by_cases hCoherent : cache.isCoherent = true
  · rw [if_pos (hMember.mpr hCoherent), if_pos hCoherent, Option.map_some]
  · rw [if_neg (mt hMember.mp hCoherent), if_neg hCoherent]

/-- A round is due once the interval has passed, unless the interval is not positive. -/
theorem roundIsDue_iff (h : worker.lastRound ≤ s.now) :
    s.roundIsDue worker = true ↔
      0 < s.coherence.reconciliationSecs.toInt ∧
        s.coherence.reconciliationSecs.toInt * 1000 ≤ (s.now : Int) - worker.lastRound := by
  unfold roundIsDue CoherenceConfig.interval?
  by_cases hOn : s.coherence.reconciliationSecs > 0
  · have hPos : 0 < s.coherence.reconciliationSecs.toInt := Int64.lt_iff_toInt_lt.mp hOn
    have hSecs : (s.coherence.reconciliationSecs.toUInt64.toNat : Int) =
        s.coherence.reconciliationSecs.toInt := by
      rw [Int64.toNat_toUInt64_of_le (Int64.le_of_lt hOn)]
      exact Int.toNat_of_nonneg (Int.le_of_lt hPos)
    have hNanos : (Duration.ofSecs s.coherence.reconciliationSecs.toUInt64).toNanos =
        s.coherence.reconciliationSecs.toUInt64.toNat * 1000000000 := by
      simp [Duration.toNanos, Duration.ofSecs]
    rw [if_pos hOn]
    dsimp only
    rw [decide_eq_true_iff, hNanos]
    omega
  · have hOff : ¬0 < s.coherence.reconciliationSecs.toInt :=
      fun hPos => hOn (Int64.lt_iff_toInt_lt.mpr hPos)
    rw [if_neg hOn]
    exact iff_of_false Bool.noConfusion fun h => hOff h.1

end Steps

end Client

end NearCache
