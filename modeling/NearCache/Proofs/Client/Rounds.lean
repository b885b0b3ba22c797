import NearCache.Proofs.Client.Passes
import NearCache.Proofs.Client.Runs
import NearCache.Proofs.Client.Upkeep

/-!
Passes and rounds of the workers of a client, over any run of starts and shutdowns, while the caches, the
directory and the members change at will. The clock of a worker starts when it is hired and starts anew
with every round that it completes; a round that a fault cuts short leaves it going. The counts add up
what the passes have done.
-/

namespace NearCache

/-- The worker begins a pass when it goes on. -/
def Worker.begins (worker : Worker) : Bool :=
  match worker.stage with
  | .ready => !worker.signalled
  | _ => false

namespace WorkerStage

/-- The worker is in a pass, or about to begin one. -/
def isPass : WorkerStage → Bool
  | .ready | .fetching .. => true
  | _ => false

def isPause : WorkerStage → Bool
  | .sleeping _ => true
  | _ => false

def isFetching : WorkerStage → Bool
  | .fetching .. => true
  | _ => false

end WorkerStage

namespace Client

variable (s : Client) (w : WorkerId)

/-- What a worker is about to do. -/
def stage? : Option WorkerStage :=
  s.workers[w]?.map Worker.stage

/-- Whether a worker was told to stop, and when its clock started last. -/
def tenure : Option (Bool × Nat) :=
  s.workers[w]?.map fun worker => (worker.signalled, worker.lastRound)

end Client

namespace Upkeep

/-- The worker begins a pass in its next step. -/
def BeginsPass (t : Upkeep) (w : WorkerId) : Prop :=
  (t.client.workers[w]?).any Worker.begins = true

/-- The members are asked in the next step of the worker: it waits for them then, or its pass has failed
over them. -/
def StartsRound (t : Upkeep) (w : WorkerId) : Prop :=
  let t' := t.perform (.work w)
  (t'.client.stage? w).any WorkerStage.isFetching = true ∨
    t'.client.metrics.failedIterations = t.client.metrics.failedIterations + 1

instance (t : Upkeep) (w : WorkerId) : Decidable (t.BeginsPass w) :=
  inferInstanceAs (Decidable (_ = true))

instance (t : Upkeep) (w : WorkerId) : Decidable (t.StartsRound w) :=
  inferInstanceAs (Decidable (_ ∨ _))

/-- The step ends a pass, for whatever reason. -/
def endsPass : Upkeep × Call → Bool
  | (t, .work w) =>
    (t.client.stage? w).any WorkerStage.isPass &&
      ((t.perform (.work w)).client.stage? w).any WorkerStage.isPause
  | _ => false

/-- The partitions that a step repairs, which is all that are overdue in any coherent cache if it begins
a pass. -/
def repaired : Upkeep × Call → Nat
  | (t, .work w) =>
    if (t.client.workers[w]?).any Worker.begins then t.client.gapsOf t.client.coherentCaches else 0
  | _ => 0

/-- The round that a step completes. -/
def completed? : Upkeep × Call → Option Round
  | (t, .work w) =>
    match t.client.workerIsReady w, t.client.stage? w with
    | true, some (.fetching ids asked) => t.client.roundOver? ids asked
    | _, _ => none
  | _ => none

/-- The step hires the worker. -/
def Hires (w : WorkerId) : Upkeep × Call → Prop
  | (t, .start) => t.client.isRunning = false ∧ t.client.nextWorker = w
  | _ => False

/-- The worker completes a round in this step. -/
def Completes (w : WorkerId) : Upkeep × Call → Prop
  | (t, .work other) => other = w ∧ (completed? (t, .work other)).isSome = true
  | _ => False

/-- A shutdown tells the worker to stop. -/
def Signals (w : WorkerId) : Upkeep × Call → Prop
  | (t, .stop) => t.client.running = some w
  | _ => False

/-- The clock of the worker starts, or starts anew. -/
def Winds (w : WorkerId) (step : Upkeep × Call) : Prop :=
  Hires w step ∨ Completes w step

section Steps

variable {t : Upkeep} {w : WorkerId}

/-- Nothing comes of the step: the worker has to wait, has stopped or was never hired. -/
structure Idles (t : Upkeep) (w : WorkerId) : Prop where
  same : t.perform (.work w) = t
  begins : ¬t.BeginsPass w
  completes : completed? (t, .work w) = none

theorem idles_or_works (t : Upkeep) (w : WorkerId) :
    t.Idles w ∨ ∃ worker, t.client.workers[w]? = some worker ∧ t.client.workerIsReady w = true ∧
      t.client.Work w worker (t.perform (.work w)).client := by
  cases hReady : t.client.workerIsReady w with
  | false =>
      refine Or.inl ⟨by simp [perform, hReady], fun hBegins => ?_, by simp [completed?, hReady]⟩
      obtain ⟨worker, hWorker, hStage⟩ := (Option.any_eq_true _ _).mp hBegins
      unfold Client.workerIsReady at hReady
      unfold Worker.begins at hStage
      cases h : worker.stage <;> simp [hWorker, h] at hReady hStage
  | true =>
      cases hWorker : t.client.workers[w]? with
      | none =>
          refine Or.inl ⟨?_, by simp [BeginsPass, hWorker], ?_⟩
          · simp [perform, hReady, Client.stepWorker, hWorker, withClient]
          · simp [completed?, hReady, Client.stage?, hWorker]
      | some worker =>
          cases hFinished : worker.isFinished with
          | false =>
              refine Or.inr ⟨worker, rfl, rfl, ?_⟩
              simp only [perform, hReady, if_true]
              exact Client.work_stepWorker hWorker hFinished
          | true =>
              unfold Worker.isFinished at hFinished
              refine Or.inl ⟨?_, ?_, ?_⟩
              · cases h : worker.stage <;>
                  simp [h, perform, hReady, Client.stepWorker, hWorker, withClient] at hFinished ⊢
              · cases h : worker.stage <;> simp [BeginsPass, hWorker, Worker.begins, h] at hFinished ⊢
              · cases h : worker.stage <;>
                  simp [completed?, hReady, Client.stage?, hWorker, h] at hFinished ⊢

theorem repaired_of_begins (h : t.BeginsPass w) :
    repaired (t, .work w) = t.client.gapsOf t.client.coherentCaches :=
  if_pos h

theorem repaired_of_not_begins (h : ¬t.BeginsPass w) : repaired (t, .work w) = 0 :=
  if_neg h

section Works

variable {worker worker' : Worker} {metrics : Metrics} (hWorker : t.client.workers[w]? = some worker)
include hWorker

theorem beginsPass_iff : t.BeginsPass w ↔ worker.stage = .ready ∧ worker.signalled = false := by
  rw [BeginsPass, hWorker, Option.any_some, Worker.begins]
  cases worker.stage <;> simp

theorem endsPass_eq (hLeft : t.client.Leaves w worker' metrics (t.perform (.work w)).client) :
    endsPass (t, .work w) = (worker.stage.isPass && worker'.stage.isPause) := by
  simp only [endsPass, Client.stage?, hWorker, hLeft.workers, if_true, Option.map_some, Option.any_some]

theorem completed?_of_other (hOther : worker.stage.isFetching = false) :
    completed? (t, .work w) = none := by
  simp only [completed?, Client.stage?, hWorker, Option.map_some]
  cases t.client.workerIsReady w <;> cases hStage : worker.stage <;>
    simp [hStage, WorkerStage.isFetching] at hOther ⊢

theorem completed?_of_fetching (hReady : t.client.workerIsReady w = true) {ids : List CacheId}
    {asked : Round} (hStage : worker.stage = .fetching ids asked) :
    completed? (t, .work w) = t.client.roundOver? ids asked := by
  simp only [completed?, Client.stage?, hWorker, Option.map_some, hReady, hStage]

end Works

/-- What a step adds to the counts. -/
structure Counts (t : Upkeep) (call : Call) : Prop where
  passes : (t.perform call).client.metrics.iterations +
      (t.perform call).client.metrics.failedIterations =
    t.client.metrics.iterations + t.client.metrics.failedIterations + (endsPass (t, call)).toNat
  repaired : (t.perform call).client.metrics.partitionsRepaired =
    t.client.metrics.partitionsRepaired + repaired (t, call)
  rounds : (t.perform call).client.metrics.antiEntropyRuns =
    t.client.metrics.antiEntropyRuns + (completed? (t, call)).toList.length
  failures : (t.perform call).client.metrics.memberFailures =
    t.client.metrics.memberFailures + ((completed? (t, call)).toList.map Round.failures).sum

/-- The counts after a step of a worker, from the counts that it leaves. -/
theorem counts_of_leaves {worker worker' : Worker} {metrics : Metrics} {gaps : Nat}
    {done : Option Round} (hWorker : t.client.workers[w]? = some worker)
    (hLeft : t.client.Leaves w worker' metrics (t.perform (.work w)).client)
    (hRepaired : repaired (t, .work w) = gaps) (hDone : completed? (t, .work w) = done)
    (hPasses : metrics.iterations + metrics.failedIterations =
      t.client.metrics.iterations + t.client.metrics.failedIterations +
        (worker.stage.isPass && worker'.stage.isPause).toNat)
    (hGaps : metrics.partitionsRepaired = t.client.metrics.partitionsRepaired + gaps)
    (hRounds : metrics.antiEntropyRuns =
      t.client.metrics.antiEntropyRuns + done.toList.length)
    (hFailures : metrics.memberFailures =
      t.client.metrics.memberFailures + (done.toList.map Round.failures).sum) :
    t.Counts (.work w) where
  passes := by rw [hLeft.metrics, endsPass_eq hWorker hLeft, hPasses]
  repaired := by rw [hLeft.metrics, hRepaired, hGaps]
  rounds := by rw [hLeft.metrics, hDone, hRounds]
  failures := by rw [hLeft.metrics, hDone, hFailures]

/-- Nothing is counted in this step, and no worker hears of it. -/
structure Quiet (step : Upkeep × Call) : Prop where
  ends : endsPass step = false
  repairs : repaired step = 0
  completes : completed? step = none
  hires : ∀ w, ¬Hires w step
  signals : ∀ w, ¬Signals w step

/-- The workers, what they have counted and how they are found stay, and time does not go back. -/
structure SameStaff (s s' : Client) : Prop where
  now : s.now ≤ s'.now
  coherence : s'.coherence = s.coherence
  workers : s'.workers = s.workers
  nextWorker : s'.nextWorker = s.nextWorker
  running : s'.running = s.running
  metrics : s'.metrics = s.metrics

theorem SameStaff.refl (s : Client) : SameStaff s s :=
  ⟨Nat.le_refl _, rfl, rfl, rfl, rfl, rfl⟩

/-- What a call can be to the workers. -/
inductive Move (t : Upkeep) (call : Call) : Prop
  | hire (hCall : call = .start) (hVacant : t.client.isRunning = false)
      (hAfter : (t.perform call).client =
        { t.client with
          workers := t.client.workers.insert t.client.nextWorker ⟨false, t.client.now, .ready⟩
          nextWorker := t.client.nextWorker + 1
          running := some t.client.nextWorker })
  | dismiss (hCall : call = .stop) (w : WorkerId) (hRunning : t.client.running = some w)
      (hAfter : (t.perform call).client =
        { t.client.modifyWorker w fun worker => { worker with signalled := true } with
          running := none })
  | abort (hQuiet : Quiet (t, call)) (w : WorkerId)
      (hAfter : (t.perform call).client = t.client.setStage w .aborted)
  | work (w : WorkerId) (worker : Worker) (hCall : call = .work w)
      (hWorker : t.client.workers[w]? = some worker) (hReady : t.client.workerIsReady w = true)
      (hWork : t.client.Work w worker (t.perform call).client)
  | stay (hQuiet : Quiet (t, call)) (hSame : SameStaff t.client (t.perform call).client)
      (hDirectory : (t.perform call).client.directory = t.client.directory ∨
        ∃ surroundings, call = .change surroundings)

theorem Move.of_same {call : Call} (hQuiet : Quiet (t, call))
    (hSame : (t.perform call).client = t.client) : t.Move call :=
  .stay hQuiet (hSame ▸ SameStaff.refl t.client) (Or.inl (congrArg Client.directory hSame))

theorem Idles.quiet (h : t.Idles w) : Quiet (t, .work w) where
  ends := by
    simp only [endsPass, h.same]
    cases t.client.stage? w with
    | none => rfl
    | some stage => cases stage <;> rfl
  repairs := repaired_of_not_begins h.begins
  completes := h.completes
  hires _ := id
  signals _ := id

theorem move_stop (t : Upkeep) : t.Move .stop := by
  cases hRunning : t.client.running with
  | none =>
      have hStop : (t.perform .stop).client = t.client := by
        simp only [perform, stop, Client.advance, Client.perform, Client.isReady, Client.act,
          Client.stopWorker, if_true, hRunning]
        rfl
      have hQuiet : Quiet (t, .stop) :=
        ⟨rfl, rfl, rfl, fun _ => id, fun w h => by cases hRunning.symm.trans h⟩
      exact .of_same hQuiet hStop
  | some w =>
      have hStop : (t.perform .stop).client =
          { t.client.modifyWorker w fun worker => { worker with signalled := true } with
            running := none } := by
        simp only [perform, stop, Client.advance, Client.perform, Client.isReady, Client.act,
          Client.stopWorker, if_true, hRunning]
        rfl
      exact .dismiss rfl w hRunning hStop

/-- A shutdown that goes on may stop a worker from outside, and does nothing else. -/
theorem move_advance (i : Nat)
    (hForm : ∀ stop ∈ t.stops, stop.isOver ∨ ∃ w due, stop.todo = [.awaitWorker w due]) :
    t.Move (.advance i) := by
  have hQuiet : Quiet (t, .advance i) := ⟨rfl, rfl, rfl, fun _ => id, fun _ => id⟩
  have hStay : (t.perform (.advance i)).client = t.client → t.Move (.advance i) :=
    .of_same hQuiet
  cases hStop : t.stops[i]? with
  | none => exact hStay (by simp only [perform, advance, hStop])
  | some stop =>
      rcases hForm stop (List.mem_of_getElem? hStop) with hOver | ⟨w, due, hTodo⟩
      · exact hStay (by simp only [perform, advance, hStop, Client.advance_of_isOver hOver])
      · by_cases hReady : t.client.isReady stop.id (.awaitWorker w due)
        · by_cases hFinished : (t.client.workers[w]?).all Worker.isFinished
          · exact hStay (by simp [perform, advance, hStop, Client.advance, hTodo, Client.perform,
              hReady, Client.act, Client.awaitWorker, hFinished, Advance.result])
          · exact .abort hQuiet w (by simp [perform, advance, hStop, Client.advance, hTodo,
              Client.perform, hReady, Client.act, Client.awaitWorker, hFinished, Advance.result])
        · have hWaits := t.client.advance_of_waiting hTodo hReady
          exact hStay (by simp only [perform, advance, hStop, hWaits]; rfl)

theorem move_perform
    (hForm : ∀ stop ∈ t.stops, stop.isOver ∨ ∃ w due, stop.todo = [.awaitWorker w due])
    (call : Call) : t.Move call := by
  cases call with
  | start =>
      cases hRunning : t.client.isRunning with
      | true =>
          have hQuiet : Quiet (t, .start) :=
            ⟨rfl, rfl, rfl, fun w h => (by cases hRunning.symm.trans h.1), fun _ => id⟩
          have hNobody : t.perform .start = t := by
            simp only [perform, Client.startWorker, hRunning, if_true, withClient]
          exact .of_same hQuiet (congrArg client hNobody)
      | false => exact .hire rfl hRunning (by simp [perform, Client.startWorker, hRunning, withClient])
  | stop => exact move_stop t
  | advance i => exact move_advance i hForm
  | work w =>
      rcases t.idles_or_works w with hIdle | ⟨worker, hWorker, hReady, hWork⟩
      · exact .of_same hIdle.quiet (congrArg client hIdle.same)
      · exact .work w worker rfl hWorker hReady hWork
  | wait millis =>
      exact .stay ⟨rfl, rfl, rfl, fun _ => id, fun _ => id⟩
        ⟨Nat.le_add_right _ _, rfl, rfl, rfl, rfl, rfl⟩ (Or.inl rfl)
  | change surroundings =>
      exact .stay ⟨rfl, rfl, rfl, fun _ => id, fun _ => id⟩ ⟨Nat.le_refl _, rfl, rfl, rfl, rfl, rfl⟩
        (Or.inr ⟨surroundings, rfl⟩)

theorem counts_work {worker : Worker} (hFiled : Client.Filed t.client.directory)
    (hWorker : t.client.workers[w]? = some worker) (hReady : t.client.workerIsReady w = true)
    (hWork : t.client.Work w worker (t.perform (.work w)).client) : t.Counts (.work w) := by
  have hBegan : ∀ s' : Client, t.client.Begins worker s' →
      repaired (t, .work w) = (t.client.repairGaps t.client.coherentCaches).2 ∧
        completed? (t, .work w) = none := by
    intro s' h
    rw [t.client.count_repairGaps (Client.nodup_coherentCaches hFiled)]
    exact ⟨repaired_of_begins ((beginsPass_iff hWorker).mpr ⟨h.ready, h.unsignalled⟩),
      completed?_of_other hWorker (by rw [h.ready]; rfl)⟩
  have hElse : worker.stage ≠ .ready ∨ worker.signalled = true → repaired (t, .work w) = 0 := by
    refine fun hElse => repaired_of_not_begins fun hBegins => ?_
    obtain ⟨hStage, hUnsignalled⟩ := (beginsPass_iff hWorker).mp hBegins
    simp [hStage, hUnsignalled] at hElse
  cases hWork with
  | quit hSignalled hStage hLeft =>
      have hDone : completed? (t, .work w) = none := by
        rcases hStage with h | ⟨due, h⟩ <;> exact completed?_of_other hWorker (by rw [h]; rfl)
      exact counts_of_leaves hWorker hLeft (hElse (Or.inr hSignalled)) hDone
        (by simp [WorkerStage.isPause]) rfl rfl rfl
  | rouse due hStage hLeft =>
      have hDone := completed?_of_other hWorker (by rw [hStage]; rfl)
      exact counts_of_leaves hWorker hLeft (hElse (Or.inl (by simp [hStage]))) hDone
        (by simp [WorkerStage.isPause]) rfl rfl rfl
  | rest hBegins hIdle hCluster hLeft =>
      obtain ⟨hRepaired, hDone⟩ := hBegan _ hBegins
      exact counts_of_leaves hWorker hLeft hRepaired hDone
        (by rw [hBegins.ready]; exact Nat.add_right_comm _ _ _) rfl rfl rfl
  | ask hBegins hDue ids asked hLeft =>
      obtain ⟨hRepaired, hDone⟩ := hBegan _ hBegins
      exact counts_of_leaves hWorker hLeft hRepaired hDone
        (by simp [WorkerStage.isPause, Client.mended]) rfl rfl rfl
  | fault hBegins hDue hLeft =>
      obtain ⟨hRepaired, hDone⟩ := hBegan _ hBegins
      exact counts_of_leaves hWorker hLeft hRepaired hDone (by rw [hBegins.ready]; rfl) rfl rfl rfl
  | await ids asked round hStage hOpen hLeft =>
      have hDone := (completed?_of_fetching hWorker hReady hStage).trans hOpen
      exact counts_of_leaves hWorker hLeft (hElse (Or.inl (by simp [hStage]))) hDone
        (by simp [WorkerStage.isPause]) rfl rfl rfl
  | fail ids asked hStage hOpen hLeft =>
      have hDone := (completed?_of_fetching hWorker hReady hStage).trans hOpen
      exact counts_of_leaves hWorker hLeft (hElse (Or.inl (by simp [hStage]))) hDone
        (by rw [hStage]; rfl) rfl rfl rfl
  | finish ids asked round hStage hOver hLeft =>
      have hDone := (completed?_of_fetching hWorker hReady hStage).trans hOver
      exact counts_of_leaves hWorker hLeft (hElse (Or.inl (by simp [hStage]))) hDone
        (by rw [hStage]; exact Nat.add_right_comm _ _ _) rfl rfl rfl

theorem counts_of_same {call : Call}
    (hSame : (t.perform call).client.metrics = t.client.metrics)
    (hEnds : endsPass (t, call) = false) (hRepaired : repaired (t, call) = 0)
    (hDone : completed? (t, call) = none) : t.Counts call := by
  constructor <;> simp [hSame, hEnds, hRepaired, hDone]

theorem Move.counts {call : Call} (h : t.Move call) (hFiled : Client.Filed t.client.directory) :
    t.Counts call := by
  cases h with
  | hire hCall hVacant hAfter =>
      subst hCall
      exact counts_of_same (by rw [hAfter]) rfl rfl rfl
  | dismiss hCall w hRunning hAfter =>
      subst hCall
      exact counts_of_same (by rw [hAfter]; rfl) rfl rfl rfl
  | abort hQuiet w hAfter =>
      exact counts_of_same (by rw [hAfter]; rfl) hQuiet.ends hQuiet.repairs hQuiet.completes
  | work w worker hCall hWorker hReady hWork =>
      subst hCall
      exact counts_work hFiled hWorker hReady hWork
  | stay hQuiet hSame _ =>
      exact counts_of_same hSame.metrics hQuiet.ends hQuiet.repairs hQuiet.completes

/-- A call goes on from where the client is: settings stay, time does not go back, and a worker that can
be found was found before or is hired now. -/
structure Continues (t : Upkeep) (call : Call) : Prop where
  coherence : (t.perform call).client.coherence = t.client.coherence
  now : t.client.now ≤ (t.perform call).client.now
  nextWorker : t.client.nextWorker ≤ (t.perform call).client.nextWorker
  hired : ∀ w, Hires w (t, call) → w < (t.perform call).client.nextWorker
  running : ∀ w, (t.perform call).client.running = some w →
    Hires w (t, call) ∨ t.client.running = some w

theorem Move.filed {call : Call} (h : t.Move call) (hFiled : Client.Filed t.client.directory)
    (hCall : ∀ surroundings, call = .change surroundings → Client.Filed surroundings.directory) :
    Client.Filed (t.perform call).client.directory := by
  have hSame : (t.perform call).client.directory = t.client.directory →
      Client.Filed (t.perform call).client.directory := fun hSame => hSame.symm ▸ hFiled
  cases h with
  | hire hCall hVacant hAfter => exact hSame (by rw [hAfter])
  | dismiss hCall w hRunning hAfter => exact hSame (by rw [hAfter]; rfl)
  | abort hQuiet w hAfter => exact hSame (by rw [hAfter]; rfl)
  | work w worker hCall hWorker hReady hWork =>
      obtain ⟨worker', metrics, hLeft⟩ := hWork.leaves
      exact hSame hLeft.directory
  | stay hQuiet hStaff hDirectory =>
      rcases hDirectory with hKept | ⟨surroundings, rfl⟩
      · exact hSame hKept
      · exact hCall surroundings rfl

theorem Move.continues {call : Call} (h : t.Move call) : t.Continues call := by
  cases h with
  | hire hCall hVacant hAfter =>
      subst hCall
      constructor
      case coherence => rw [hAfter]
      case now => exact Nat.le_of_eq (by rw [hAfter])
      case nextWorker => rw [hAfter]; exact Nat.le_succ _
      case hired =>
        rintro w ⟨-, rfl⟩
        rw [hAfter]
        exact Nat.lt_succ_self _
      case running =>
        intro w hw
        rw [hAfter] at hw
        exact Or.inl ⟨hVacant, Option.some.inj hw⟩
  | dismiss hCall w hRunning hAfter =>
      subst hCall
      constructor
      case coherence => rw [hAfter]; rfl
      case now => exact Nat.le_of_eq (by rw [hAfter]; rfl)
      case nextWorker => exact Nat.le_of_eq (by rw [hAfter]; rfl)
      case hired => exact fun _ => False.elim
      case running =>
        intro other hOther
        rw [hAfter] at hOther
        cases hOther
  | abort hQuiet w hAfter =>
      constructor
      case coherence => rw [hAfter]; rfl
      case now => exact Nat.le_of_eq (by rw [hAfter]; rfl)
      case nextWorker => exact Nat.le_of_eq (by rw [hAfter]; rfl)
      case hired => exact fun other h => absurd h (hQuiet.hires other)
      case running => rw [hAfter]; exact fun _ => Or.inr
  | work w worker hCall hWorker hReady hWork =>
      subst hCall
      obtain ⟨worker', metrics, hLeft⟩ := hWork.leaves
      exact ⟨hLeft.coherence, Nat.le_of_eq hLeft.now.symm, Nat.le_of_eq hLeft.nextWorker.symm,
        fun _ => False.elim, fun other h => Or.inr (hLeft.running ▸ h)⟩
  | stay hQuiet hSame _ =>
      exact ⟨hSame.coherence, hSame.now, Nat.le_of_eq hSame.nextWorker.symm,
        fun other h => absurd h (hQuiet.hires other), fun other h => Or.inr (hSame.running ▸ h)⟩

/-- What a call makes of the clock of a worker, and of whether it was told to stop. -/
inductive Ticks (t : Upkeep) (call : Call) (w : WorkerId) : Prop
  | hired (hStep : Hires w (t, call))
      (hAfter : (t.perform call).client.tenure w = some (false, t.client.now))
  | completed (hStep : Completes w (t, call)) (signalled : Bool) (last : Nat)
      (hBefore : t.client.tenure w = some (signalled, last))
      (hAfter : (t.perform call).client.tenure w = some (signalled, t.client.now))
  | signalled (hStep : Signals w (t, call))
      (hAfter : (t.perform call).client.tenure w = (t.client.tenure w).map fun x => (true, x.2))
  | kept (hHires : ¬Hires w (t, call)) (hCompletes : ¬Completes w (t, call))
      (hSignals : ¬Signals w (t, call))
      (hAfter : (t.perform call).client.tenure w = t.client.tenure w)

theorem Quiet.not_completes {call : Call} (h : Quiet (t, call)) (w : WorkerId) :
    ¬Completes w (t, call) := by
  cases call with
  | work other =>
      rintro ⟨-, hDone⟩
      simp [h.completes] at hDone
  | _ => exact id

theorem tenure_modifyWorker (s : Client) (w other : WorkerId) (change : Worker → Worker) :
    (s.modifyWorker w change).tenure other =
      if other = w then (s.workers[w]?.map change).map fun x => (x.signalled, x.lastRound)
      else s.tenure other := by
  have hLookup := congrFun (lookup_modify s.workers w change) other
  rw [Function.update_apply] at hLookup
  rw [Client.tenure, show (s.modifyWorker w change).workers[other]? = _ from hLookup]
  split_ifs <;> rfl

theorem tenure_setStage (s : Client) (w other : WorkerId) (stage : WorkerStage) :
    (s.setStage w stage).tenure other = s.tenure other := by
  rw [Client.setStage, tenure_modifyWorker]
  split_ifs with hSame
  · rw [hSame, Client.tenure, Option.map_map]
    rfl
  · rfl

theorem tenure_of_leaves {s s' : Client} {worker : Worker} {metrics : Metrics}
    (h : s.Leaves w worker metrics s') (other : WorkerId) :
    s'.tenure other =
      if other = w then some (worker.signalled, worker.lastRound) else s.tenure other := by
  rw [Client.tenure, h.workers]
  split_ifs <;> rfl

/-- Only the step that completes a round winds the clock of the worker that it is a step of. -/
theorem ticks_work {worker : Worker} (hWorker : t.client.workers[w]? = some worker)
    (hReady : t.client.workerIsReady w = true)
    (hWork : t.client.Work w worker (t.perform (.work w)).client) : t.Ticks (.work w) w := by
  have hBefore : t.client.tenure w = some (worker.signalled, worker.lastRound) := by
    rw [Client.tenure, hWorker, Option.map_some]
  have hKept : ∀ stage metrics, completed? (t, .work w) = none →
      t.client.Leaves w { worker with stage := stage } metrics (t.perform (.work w)).client →
      t.Ticks (.work w) w := by
    intro stage metrics hNone hLeft
    refine .kept id (fun h => ?_) id ?_
    · have hDone := h.2
      simp [hNone] at hDone
    · rw [tenure_of_leaves hLeft, if_pos rfl, hBefore]
  cases hWork with
  | quit hSignalled hStage hLeft =>
      refine hKept _ _ (completed?_of_other hWorker ?_) hLeft
      rcases hStage with h | ⟨due, h⟩ <;> rw [h] <;> rfl
  | rouse due hStage hLeft =>
      exact hKept _ _ (completed?_of_other hWorker (by rw [hStage]; rfl)) hLeft
  | rest hBegins hIdle hCluster hLeft =>
      exact hKept _ _ (completed?_of_other hWorker (by rw [hBegins.ready]; rfl)) hLeft
  | ask hBegins hDue ids asked hLeft =>
      exact hKept _ _ (completed?_of_other hWorker (by rw [hBegins.ready]; rfl)) hLeft
  | fault hBegins hDue hLeft =>
      exact hKept _ _ (completed?_of_other hWorker (by rw [hBegins.ready]; rfl)) hLeft
  | await ids asked round hStage hOpen hLeft =>
      exact hKept _ _ ((completed?_of_fetching hWorker hReady hStage).trans hOpen) hLeft
  | fail ids asked hStage hOpen hLeft =>
      exact hKept _ _ ((completed?_of_fetching hWorker hReady hStage).trans hOpen) hLeft
  | finish ids asked round hStage hOver hLeft =>
      have hDone := (completed?_of_fetching hWorker hReady hStage).trans hOver
      refine .completed ⟨rfl, Option.isSome_of_eq_some hDone⟩ _ _ hBefore ?_
      rw [tenure_of_leaves hLeft, if_pos rfl]

theorem Move.ticks {call : Call} (h : t.Move call) (w : WorkerId) : t.Ticks call w := by
  cases h with
  | hire hCall hVacant hAfter =>
      subst hCall
      have hTenure : (t.perform .start).client.tenure w =
          if w = t.client.nextWorker then some (false, t.client.now) else t.client.tenure w := by
        have hLookup := congrFun (lookup_insert t.client.workers t.client.nextWorker
          ⟨false, t.client.now, .ready⟩) w
        rw [Function.update_apply] at hLookup
        rw [hAfter, Client.tenure, hLookup]
        split_ifs <;> rfl
      by_cases hNew : w = t.client.nextWorker
      · exact .hired ⟨hVacant, hNew.symm⟩ (hTenure.trans (if_pos hNew))
      · exact .kept (fun h => hNew h.2.symm) id id (hTenure.trans (if_neg hNew))
  | dismiss hCall dismissed hRunning hAfter =>
      subst hCall
      have hTenure : (t.perform .stop).client.tenure w = _ :=
        (congrArg (Client.tenure · w) hAfter).trans (tenure_modifyWorker t.client dismissed w _)
      by_cases hSame : w = dismissed
      · refine .signalled (hSame ▸ hRunning) ?_
        rw [hTenure, if_pos hSame, hSame, Client.tenure, Option.map_map, Option.map_map]
        rfl
      · refine .kept id id (fun h => hSame ?_) (hTenure.trans (if_neg hSame))
        exact Option.some.inj (h.symm.trans hRunning)
  | abort hQuiet aborted hAfter =>
      refine .kept (hQuiet.hires w) (hQuiet.not_completes w) (hQuiet.signals w) ?_
      rw [hAfter, tenure_setStage]
  | work other worker hCall hWorker hReady hWork =>
      subst hCall
      by_cases hSame : other = w
      · subst hSame
        exact ticks_work hWorker hReady hWork
      · obtain ⟨worker', metrics, hLeft⟩ := hWork.leaves
        refine .kept id (fun h => hSame h.1) id ?_
        rw [tenure_of_leaves hLeft, if_neg (Ne.symm hSame)]
  | stay hQuiet hSame _ =>
      refine .kept (hQuiet.hires w) (hQuiet.not_completes w) (hQuiet.signals w) ?_
      rw [Client.tenure, hSame.workers, Client.tenure]

theorem Winds.not_signals {step : Upkeep × Call} (h : Winds w step) : ¬Signals w step := by
  obtain ⟨t, call⟩ := step
  cases call with
  | stop => exact absurd h (not_or_intro id id)
  | _ => exact id

theorem Hires.free {call : Call} (h : Hires w (t, call)) : t.client.nextWorker ≤ w := by
  cases call with
  | start => exact Nat.le_of_eq h.2
  | _ => exact h.elim

theorem Signals.found {call : Call} (h : Signals w (t, call)) : t.client.running = some w := by
  cases call with
  | stop => exact h
  | _ => exact h.elim

/-- A worker that is known after a call was known before, unless it was hired. -/
theorem Ticks.known {call : Call} (h : t.Ticks call w)
    (hKnown : ((t.perform call).client.tenure w).isSome = true) :
    Hires w (t, call) ∨ (t.client.tenure w).isSome = true := by
  cases h with
  | hired hStep _ => exact Or.inl hStep
  | completed _ signalled last hBefore _ => exact Or.inr (Option.isSome_of_eq_some hBefore)
  | signalled _ hAfter => exact Or.inr (by simpa [hAfter] using hKnown)
  | kept _ _ _ hAfter => exact Or.inr (hAfter ▸ hKnown)

end Steps

/-- What a history says of the workers: who was hired, when the clock of each started last, and who was
told to stop. -/
structure Kept (t : Upkeep) (history : List (Upkeep × Call)) : Prop where
  past : ∀ step ∈ history, step.1.client.now ≤ t.client.now
  running : ∀ w, t.client.running = some w → w < t.client.nextWorker
  known : ∀ w, (t.client.tenure w).isSome → w < t.client.nextWorker
  future : ∀ w, t.client.nextWorker ≤ w → ∀ step ∈ history, ¬Winds w step ∧ ¬Signals w step
  hired : ∀ w, (t.client.tenure w).isSome → ∃ step ∈ history, Hires w step
  wound : ∀ w signalled last, t.client.tenure w = some (signalled, last) →
    (∃ step ∈ history, Winds w step ∧ step.1.client.now = last) ∧
      ∀ step ∈ history, Winds w step → step.1.client.now ≤ last
  unsignalled : ∀ w last, t.client.tenure w = some (false, last) → ∀ step ∈ history, ¬Signals w step

section Runs

variable {t : Upkeep} {history : List (Upkeep × Call)} {call : Call}

theorem Kept.perform (h : t.Kept history) (hMove : t.Move call) :
    (t.perform call).Kept (history ++ [(t, call)]) where
  past := by
    have hNow := hMove.continues.now
    rw [List.forall_mem_append, List.forall_mem_singleton]
    exact ⟨fun step hm => Nat.le_trans (h.past step hm) hNow, hNow⟩
  running w hRunning := by
    rcases hMove.continues.running w hRunning with hHires | hBefore
    · exact hMove.continues.hired w hHires
    · exact Nat.lt_of_lt_of_le (h.running w hBefore) hMove.continues.nextWorker
  known w hKnown := by
    rcases (hMove.ticks w).known hKnown with hHires | hBefore
    · exact hMove.continues.hired w hHires
    · exact Nat.lt_of_lt_of_le (h.known w hBefore) hMove.continues.nextWorker
  future w hFuture := by
    have hFree : t.client.nextWorker ≤ w := Nat.le_trans hMove.continues.nextWorker hFuture
    rw [List.forall_mem_append, List.forall_mem_singleton]
    refine ⟨h.future w hFree, ?_⟩
    cases hMove.ticks w with
    | hired hStep _ =>
        exact absurd (hMove.continues.hired w hStep) (Nat.not_lt.mpr hFuture)
    | completed _ signalled last hBefore _ =>
        exact absurd (h.known w (Option.isSome_of_eq_some hBefore)) (Nat.not_lt.mpr hFree)
    | signalled hStep _ => exact absurd (h.running w hStep.found) (Nat.not_lt.mpr hFree)
    | kept hHires hCompletes hSignals _ => exact ⟨not_or_intro hHires hCompletes, hSignals⟩
  hired w hKnown := by
    rcases (hMove.ticks w).known hKnown with hHires | hBefore
    · exact ⟨_, List.mem_append_right _ (List.mem_singleton_self _), hHires⟩
    · obtain ⟨step, hm, hHires⟩ := h.hired w hBefore
      exact ⟨step, List.mem_append_left _ hm, hHires⟩
  wound w signalled last hTenure := by
    have hLast : (t, call) ∈ history ++ [(t, call)] :=
      List.mem_append_right _ (List.mem_singleton_self _)
    rw [List.forall_mem_append, List.forall_mem_singleton]
    cases hMove.ticks w with
    | hired hStep hAfter =>
        cases hAfter.symm.trans hTenure
        refine ⟨⟨_, hLast, Or.inl hStep, rfl⟩, fun step hm hWinds => ?_, fun _ => Nat.le_refl _⟩
        exact absurd hWinds (h.future w hStep.free step hm).1
    | completed hStep _ _ hBefore hAfter =>
        cases hAfter.symm.trans hTenure
        exact ⟨⟨_, hLast, Or.inr hStep, rfl⟩, fun step hm _ => h.past step hm, fun _ => Nat.le_refl _⟩
    | signalled hStep hAfter =>
        obtain ⟨⟨before, since⟩, hBefore, hSame⟩ := Option.map_eq_some_iff.mp (hAfter ▸ hTenure)
        cases hSame
        obtain ⟨⟨step, hm, hWinds, hNow⟩, hEarlier⟩ := h.wound w before since hBefore
        exact ⟨⟨step, List.mem_append_left _ hm, hWinds, hNow⟩, hEarlier,
          fun hWinds => absurd hStep hWinds.not_signals⟩
    | kept hHires hCompletes _ hAfter =>
        obtain ⟨⟨step, hm, hWinds, hNow⟩, hEarlier⟩ := h.wound w signalled last (hAfter ▸ hTenure)
        exact ⟨⟨step, List.mem_append_left _ hm, hWinds, hNow⟩, hEarlier,
          fun hWinds => absurd hWinds (not_or_intro hHires hCompletes)⟩
  unsignalled w last hTenure := by
    rw [List.forall_mem_append, List.forall_mem_singleton]
    cases hMove.ticks w with
    | hired hStep _ =>
        exact ⟨fun step hm => (h.future w hStep.free step hm).2, Winds.not_signals (Or.inl hStep)⟩
    | completed hStep _ _ hBefore hAfter =>
        cases hAfter.symm.trans hTenure
        exact ⟨h.unsignalled w _ hBefore, Winds.not_signals (Or.inr hStep)⟩
    | signalled _ hAfter =>
        rw [hAfter] at hTenure
        cases hBefore : t.client.tenure w <;> simp [hBefore] at hTenure
    | kept _ _ hSignals hAfter => exact ⟨h.unsignalled w last (hAfter ▸ hTenure), hSignals⟩

/-- What the counts of a client come to over a history. -/
structure Counted (t : Upkeep) (history : List (Upkeep × Call)) : Prop where
  passes : t.client.metrics.iterations + t.client.metrics.failedIterations =
    history.countP endsPass
  repaired : t.client.metrics.partitionsRepaired = (history.map repaired).sum
  rounds : t.client.metrics.antiEntropyRuns = (history.filterMap completed?).length
  failures : t.client.metrics.memberFailures =
    ((history.filterMap completed?).map Round.failures).sum

theorem Counted.perform (h : t.Counted history) (hCounts : t.Counts call) :
    (t.perform call).Counted (history ++ [(t, call)]) where
  passes := by
    rw [hCounts.passes, h.passes, List.countP_append]
    cases hEnds : endsPass (t, call) <;> simp [hEnds]
  repaired := by
    rw [hCounts.repaired, h.repaired]
    simp
  rounds := by
    rw [hCounts.rounds, h.rounds]
    cases hDone : completed? (t, call) <;> simp [hDone]
  failures := by
    rw [hCounts.failures, h.failures]
    cases hDone : completed? (t, call) <;> simp [hDone]

/-- All that a history tells of a client. -/
structure Recorded (coherence : CoherenceConfig) (t : Upkeep) (history : List (Upkeep × Call)) :
    Prop where
  coherence : t.client.coherence = coherence
  filed : Client.Filed t.client.directory
  kept : t.Kept history
  counted : t.Counted history

theorem Recorded.perform {coherence : CoherenceConfig} (h : t.Recorded coherence history)
    (hMove : t.Move call)
    (hCall : ∀ surroundings, call = .change surroundings → Client.Filed surroundings.directory) :
    (t.perform call).Recorded coherence (history ++ [(t, call)]) where
  coherence := hMove.continues.coherence.trans h.coherence
  filed := hMove.filed h.filed hCall
  kept := h.kept.perform hMove
  counted := h.counted.perform (hMove.counts h.filed)

theorem recorded_create (configs : ConfigCatalog) (coherence : CoherenceConfig) (cluster : Cluster) :
    (fresh (.create configs coherence cluster)).Recorded coherence [] where
  coherence := rfl
  filed name other id h := by simp [fresh, Client.create] at h
  kept := by
    constructor <;> simp [fresh, Client.create, Client.tenure]
  counted := ⟨rfl, rfl, rfl, rfl⟩

theorem recorded_run (configs : ConfigCatalog) (coherence : CoherenceConfig) (cluster : Cluster)
    {calls : List Call}
    (hFiled : ∀ surroundings, .change surroundings ∈ calls → Client.Filed surroundings.directory) :
    (run (fresh (.create configs coherence cluster)) calls).Recorded coherence
      (steps (fresh (.create configs coherence cluster)) calls) := by
  induction calls using List.reverseRecOn with
  | nil => exact recorded_create configs coherence cluster
  | append_singleton calls call ih =>
      have hTended : (fresh (.create configs coherence cluster)).Tended := by
        rintro w ⟨worker, hWorker, -⟩
        simp [fresh, Client.create] at hWorker
      have hMove := move_perform (posted_of_run hTended calls).form call
      rw [run, History.run_concat, ← run, steps, History.steps_concat, ← steps]
      refine (ih fun surroundings hm => hFiled surroundings ?_).perform hMove fun surroundings h => ?_
      · exact List.mem_append_left _ hm
      · exact hFiled surroundings (List.mem_append_right _ (List.mem_singleton.mpr h.symm))

end Runs

section Begins

variable {t : Upkeep} {w : WorkerId}

/-- What the first step of a pass does. -/
structure Opens (t : Upkeep) (w : WorkerId) (worker : Worker) : Prop where
  known : t.client.workers[w]? = some worker
  unsignalled : worker.signalled = false
  caches : (t.perform (.work w)).client.caches = t.client.mended.caches
  asks : t.StartsRound w ↔ t.client.AsksMembers worker
  cluster : ¬t.StartsRound w → (t.perform (.work w)).client.cluster = t.client.cluster

theorem opens_of_begins (h : t.BeginsPass w) : ∃ worker, t.Opens w worker := by
  rcases t.idles_or_works w with hIdle | ⟨worker, hWorker, hReady, hWork⟩
  · exact absurd h hIdle.begins
  obtain ⟨hStage, hUnsignalled⟩ := (beginsPass_iff hWorker).mp h
  have hAfter : ∀ worker' metrics, t.client.Leaves w worker' metrics (t.perform (.work w)).client →
      (t.StartsRound w ↔ worker'.stage.isFetching = true ∨
        metrics.failedIterations = t.client.metrics.failedIterations + 1) := by
    intro worker' metrics hLeft
    simp only [StartsRound, Client.stage?, hLeft.workers, if_true, Option.map_some, Option.any_some,
      hLeft.metrics]
  refine ⟨worker, ?_⟩
  cases hWork with
  | rest hBegins hIdle hCluster hLeft =>
      have hNobody : ¬t.StartsRound w := by
        rw [hAfter _ _ hLeft]
        simp [Client.pause, WorkerStage.isFetching, Client.mended]
      exact ⟨hWorker, hUnsignalled, hBegins.caches, iff_of_false hNobody hIdle, fun _ => hCluster⟩
  | ask hBegins hDue ids asked hLeft =>
      have hAsked : t.StartsRound w := (hAfter _ _ hLeft).mpr (Or.inl rfl)
      exact ⟨hWorker, hUnsignalled, hBegins.caches, iff_of_true hAsked hDue, fun h => absurd hAsked h⟩
  | fault hBegins hDue hLeft =>
      have hAsked : t.StartsRound w := (hAfter _ _ hLeft).mpr (Or.inr rfl)
      exact ⟨hWorker, hUnsignalled, hBegins.caches, iff_of_true hAsked hDue, fun h => absurd hAsked h⟩
  | quit hSignalled _ _ => cases hUnsignalled.symm.trans hSignalled
  | rouse _ hOther _ | await _ _ _ hOther _ _ | fail _ _ hOther _ _ | finish _ _ _ hOther _ _ =>
      cases hStage.symm.trans hOther

end Begins

end Upkeep

/-- A client whose books are in order has each cache in its directory under one name. -/
theorem Filed.directory {s : Client} (h : Filed s.books) : Client.Filed s.directory :=
  fun name other id hName hOther =>
    Option.some.inj ((h.named name id hName).symm.trans (h.named other id hOther))

/-- So has every client that callers have come to by opening, destroying and renewing caches. -/
theorem Traffic.filed_directory (configs : ConfigCatalog) (coherence : CoherenceConfig)
    {cluster : Cluster} (hRegistrations : cluster.registrations = ∅)
    (hBindings : cluster.bindings = ∅) (hFair : cluster.faults.Fair) (calls : List Traffic.Call)
    (hApart : ∀ step ∈ Traffic.steps (.start configs coherence cluster) calls,
      step.1.RenewsApart) :
    Client.Filed (Traffic.run (.start configs coherence cluster) calls).client.directory := by
  obtain ⟨plans, h⟩ :=
    upheld_of_run configs coherence hRegistrations hBindings hFair calls hApart
  exact h.orderly.filed.directory

/-- Passes and rounds over every run of a client, whatever becomes of the members, the caches and the
directory on the way, as long as each cache is in the latter under one name. A pass begins with the
repair of gaps in all caches of the directory that are coherent then, and of no other. In the same step
the members are asked if and only if rounds are on, some cache is coherent, and an interval has passed
since the worker was hired and since every round that it completed; else nothing is asked of the
cluster. Only a worker that was hired and has not been told to stop begins a pass. All passes that end
are counted as ended well or as failed, and the other counts are what passes that began have repaired,
the rounds completed, and the members that failed in these. -/
theorem passes_keep_schedule (configs : ConfigCatalog) (coherence : CoherenceConfig)
    (cluster : Cluster) (calls : List Upkeep.Call)
    (hFiled : ∀ surroundings, .change surroundings ∈ calls → Client.Filed surroundings.directory) :
    let start := Upkeep.fresh (.create configs coherence cluster)
    let history := start.steps calls
    let t := start.run calls
    let seconds := coherence.reconciliationSecs.toInt
    (∀ w, t.BeginsPass w →
      let t' := t.perform (.work w)
      (∀ (name : String) (id : CacheId) (cache : Cache), t.client.directory[name]? = some id →
        t.client.caches[id]? = some cache →
        t'.client.caches[id]? = some (if cache.isCoherent then cache.repairGaps.1 else cache)) ∧
      (t.StartsRound w ↔ 0 < seconds ∧ t.client.coherentCaches ≠ [] ∧
        ∀ step ∈ history, Upkeep.Winds w step →
          seconds * 1000 ≤ (t.client.now : Int) - step.1.client.now) ∧
      (¬t.StartsRound w → t'.client.cluster = t.client.cluster) ∧
      (∃ step ∈ history, Upkeep.Hires w step) ∧ ∀ step ∈ history, ¬Upkeep.Signals w step) ∧
    t.client.metrics.iterations + t.client.metrics.failedIterations =
      history.countP Upkeep.endsPass ∧
    t.client.metrics.partitionsRepaired = (history.map Upkeep.repaired).sum ∧
    t.client.metrics.antiEntropyRuns = (history.filterMap Upkeep.completed?).length ∧
    t.client.metrics.memberFailures =
      ((history.filterMap Upkeep.completed?).map Round.failures).sum := by
  intro start history t seconds
  obtain ⟨hCoherence, hDirectory, hKept, hCounted⟩ :=
    Upkeep.recorded_run configs coherence cluster hFiled
  refine ⟨fun w hBegins => ?_, hCounted.passes, hCounted.repaired, hCounted.rounds,
    hCounted.failures⟩
  obtain ⟨worker, hOpens⟩ := Upkeep.opens_of_begins hBegins
  have hTenure : t.client.tenure w = some (false, worker.lastRound) := by
    rw [Client.tenure, hOpens.known, Option.map_some, hOpens.unsignalled]
  obtain ⟨⟨last, hLast, hWinds, hNow⟩, hEarlier⟩ := hKept.wound w false worker.lastRound hTenure
  have hPast : worker.lastRound ≤ t.client.now := hNow ▸ hKept.past last hLast
  have hDue := Client.roundIsDue_iff hPast
  refine ⟨fun name id cache hEntry hCache => ?_, ?_, hOpens.cluster,
    hKept.hired w (Option.isSome_of_eq_some hTenure), hKept.unsignalled w _ hTenure⟩
  · rw [hOpens.caches]
    exact Client.getElem?_mended hDirectory hEntry hCache
  · rw [hOpens.asks, Client.AsksMembers, hDue, hCoherence]
    constructor
    · rintro ⟨hCoherent, hOn, hPassed⟩
      refine ⟨hOn, hCoherent, fun step hm hStep => ?_⟩
      have hBefore := hEarlier step hm hStep
      omega
    · rintro ⟨hOn, hCoherent, hPassed⟩
      have hSince := hPassed last hLast hWinds
      exact ⟨hCoherent, hOn, hNow ▸ hSince⟩

namespace Upkeep

/-- A worker asks the slow member, completes the round ten seconds later, pauses, and is ready for a pass
one millisecond before a minute has passed since. -/
def untilNextPass : List Call :=
  .start :: untilFetching ++ [.wait 10000, .work 0, .wait 59999, .work 0]

end Upkeep

/-- The interval counts from the end of the round, which took ten seconds, and to the millisecond. -/
theorem passes_keep_schedule_after_slow_round :
    let start := Upkeep.fresh Upkeep.unstaffed
    let t := start.run Upkeep.untilNextPass
    (∀ surroundings, .change surroundings ∈ Upkeep.untilNextPass →
        Client.Filed surroundings.directory) ∧
      t.BeginsPass 0 ∧ ¬t.StartsRound 0 ∧ (t.perform (.wait 1)).StartsRound 0 ∧
      t.client.metrics.antiEntropyRuns = 1 := by
  intro start t
  have hFiled : ∀ surroundings, .change surroundings ∈ Upkeep.untilNextPass →
      Client.Filed surroundings.directory := by
    intro surroundings hm
    have hSlow : surroundings = Upkeep.slowMember := by
      simpa [Upkeep.untilNextPass, Upkeep.untilFetching] using hm
    rw [hSlow]
    intro name other id h h'
    simp [Upkeep.slowMember, Std.ExtTreeMap.getElem?_insert] at h h'
    exact h.1.symm.trans h'.1
  have hBegins : t.BeginsPass 0 := by decide
  refine ⟨hFiled, hBegins, fun hStarts => ?_, by decide, by decide⟩
  obtain ⟨hPasses, -⟩ := passes_keep_schedule (.ofList [.ofName "orders"]) .default (.ofSize 1)
    Upkeep.untilNextPass hFiled
  obtain ⟨-, hDue, -⟩ := hPasses 0 hBegins
  let asked := start.run (.start :: Upkeep.untilFetching ++ [.wait 10000])
  have hEnded : (asked, .work 0) ∈ start.steps Upkeep.untilNextPass := by
    have hSplit : Upkeep.untilNextPass = (.start :: Upkeep.untilFetching ++ [.wait 10000]) ++
        .work 0 :: [.wait 59999, .work 0] := rfl
    rw [hSplit, Upkeep.steps, History.steps_append]
    exact List.mem_append_right _ List.mem_cons_self
  have hCompletes : Upkeep.Winds 0 (asked, .work 0) := Or.inr ⟨rfl, by decide⟩
  have hPassed := (hDue.mp hStarts).2.2 (asked, .work 0) hEnded hCompletes
  revert hPassed
  decide

end NearCache
