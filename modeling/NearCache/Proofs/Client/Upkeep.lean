import NearCache.Proofs.Client.Background
import NearCache.Proofs.Client.Turn
import NearCache.Proofs.History

/-!
Starts and shutdowns of the worker by any number of callers, while the worker goes about its work. A
shutdown takes the worker out of the place in which a start looks for it, and then waits. Until it
is over, a start finds nobody there and hires a second worker, and another shutdown finds nobody to
wait for. There is one worker as long as neither is called while one that was taken out is alive.
-/

namespace NearCache

/-- A client whose worker is started and shut down, and all shutdowns that have begun. -/
structure Upkeep where
  client : Client
  stops : List Activity

/-- What the worker looks at and does not own: the cluster, and the caches of the client. -/
structure Surroundings where
  cluster : Cluster
  caches : Std.ExtTreeMap CacheId Cache
  directory : Std.ExtTreeMap String CacheId

namespace Upkeep

inductive Call where
  | start
  | stop
  /-- The shutdown of this place goes on, or finds that it has to wait. -/
  | advance (i : Nat)
  | work (worker : WorkerId)
  | wait (millis : Nat)
  | change (surroundings : Surroundings)

def withClient (t : Upkeep) (s : Client) : Upkeep :=
  { t with client := s }

/-- A shutdown begins, and goes on until it has to wait. -/
def stop (t : Upkeep) : Upkeep :=
  let done := (t.client.advance ⟨t.stops.length, [.stopWorker], .done⟩).result
  ⟨done.1, t.stops ++ [done.2]⟩

def advance (t : Upkeep) (i : Nat) : Upkeep :=
  match t.stops[i]? with
  | none => t
  | some stop =>
    let done := (t.client.advance stop).result
    ⟨done.1, t.stops.set i done.2⟩

def perform (t : Upkeep) : Call → Upkeep
  | .start => t.withClient t.client.startWorker.1
  | .stop => t.stop
  | .advance i => t.advance i
  | .work worker =>
    if t.client.workerIsReady worker then t.withClient (t.client.stepWorker worker).1 else t
  | .wait millis => t.withClient { t.client with now := t.client.now + millis }
  | .change surroundings => t.withClient { t.client with
      cluster := surroundings.cluster
      caches := surroundings.caches
      directory := surroundings.directory }

/-- A client that nobody has shut down so far. -/
def fresh (s : Client) : Upkeep :=
  ⟨s, []⟩

def run : Upkeep → List Call → Upkeep :=
  History.run perform

def steps : Upkeep → List Call → List (Upkeep × Call) :=
  History.steps perform

/-- The worker has not stopped, neither by itself nor from outside. -/
def Alive (t : Upkeep) (w : WorkerId) : Prop :=
  ∃ worker, t.client.workers[w]? = some worker ∧ worker.isFinished = false

instance (t : Upkeep) (w : WorkerId) : Decidable (t.Alive w) :=
  inferInstanceAs
    (Decidable (∃ worker ∈ t.client.workers[w]?, worker.isFinished = false))

/-- The shutdown of a place waits for the worker. -/
def Awaits (t : Upkeep) (i : Nat) (w : WorkerId) : Prop :=
  ∃ stop due, t.stops[i]? = some stop ∧ stop.todo = [.awaitWorker w due]

/-- The shutdown of a place has returned. -/
def Returned (t : Upkeep) (i : Nat) : Prop :=
  ∃ stop, t.stops[i]? = some stop ∧ stop.isOver

instance (t : Upkeep) (i : Nat) : Decidable (t.Returned i) :=
  inferInstanceAs (Decidable (∃ stop ∈ t.stops[i]?, stop.isOver))

/-- No worker is alive but the one that a start or a shutdown finds. -/
def Tended (t : Upkeep) : Prop :=
  ∀ w, t.Alive w → t.client.running = some w

/-- A start is called only when no worker is alive that a shutdown has taken out. -/
def StartsTended : Upkeep × Call → Prop
  | (t, .start) => t.Tended
  | _ => True

/-- Where nobody calls a start, none is called at a wrong moment. -/
theorem startsTended_of_not_mem {t : Upkeep} {calls : List Call} (h : .start ∉ calls) :
    ∀ step ∈ t.steps calls, StartsTended step := by
  rintro ⟨t', call⟩ hm
  cases call with
  | start => exact absurd (History.call_mem_of_mem_steps hm) h
  | _ => trivial

section Steps

variable {t : Upkeep} {w : WorkerId}

theorem alive_iff : t.Alive w ↔ t.client.books.worker w ≠ none := by
  simp only [Alive, Client.books]
  cases t.client.workers[w]? with
  | none => simp
  | some worker => cases hFinished : worker.isFinished <;> simp [Worker.standing, hFinished]

/-- What a call does to the workers and to the shutdowns that wait for them. -/
inductive Effect (t : Upkeep) : Call → Upkeep → Prop
  | keep {call t'} (hCall : call ≠ .stop) (hRunning : t'.client.running = t.client.running)
      (hAlive : ∀ w, t'.Alive w → t.Alive w) (hStops : t'.stops = t.stops) : Effect t call t'
  | hire {t'} (new : WorkerId) (hVacant : ∀ w, t.client.running = some w → ¬t.Alive w)
      (hRunning : t'.client.running = some new)
      (hAlive : ∀ w, t'.Alive w → w = new ∨ t.Alive w) (hStops : t'.stops = t.stops) :
      Effect t .start t'
  | take {t'} (w : WorkerId) (stop : Activity) (due : Nat) (hBefore : t.client.running = some w)
      (hRunning : t'.client.running = none) (hAlive : ∀ w, t'.Alive w → t.Alive w)
      (hStops : t'.stops = t.stops ++ [stop]) (hTodo : stop.todo = [.awaitWorker w due]) :
      Effect t .stop t'
  | miss {t'} (stop : Activity) (hBefore : t.client.running = none)
      (hRunning : t'.client.running = none) (hAlive : ∀ w, t'.Alive w → t.Alive w)
      (hStops : t'.stops = t.stops ++ [stop]) (hTodo : stop.todo = []) : Effect t .stop t'
  | reap {t'} (i : Nat) (w : WorkerId) (stop : Activity) (hAwaits : t.Awaits i w)
      (hRunning : t'.client.running = t.client.running)
      (hAlive : ∀ other, t'.Alive other → t.Alive other ∧ other ≠ w)
      (hStops : t'.stops = t.stops.set i stop) (hTodo : stop.todo = []) :
      Effect t (.advance i) t'

/-- Who is alive after a worker has stopped was so before, and is another one. -/
theorem alive_of_retire {t' : Upkeep} {other : WorkerId}
    (hBooks : t'.client.books = t.client.books.retire w) (hAlive : t'.Alive other) :
    t.Alive other ∧ other ≠ w := by
  rw [alive_iff, hBooks] at hAlive
  simp only [Books.retire, Function.update_apply] at hAlive
  split at hAlive
  · exact absurd rfl hAlive
  next hOther => exact ⟨alive_iff.mpr hAlive, hOther⟩

variable (t)

theorem effect_start : Effect t .start (t.perform .start) := by
  simp only [perform, Client.startWorker]
  by_cases hRunning : t.client.isRunning
  · rw [if_pos hRunning]
    exact .keep nofun rfl (fun _ => id) rfl
  · rw [if_neg hRunning]
    refine .hire t.client.nextWorker (fun w hw hAlive => ?_) rfl (fun w hAlive => ?_) rfl
    · exact hRunning (t.client.isRunning_iff.mpr
        ⟨w, hw, Option.isSome_iff_ne_none.mpr (alive_iff.mp hAlive)⟩)
    · rw [alive_iff, withClient, t.client.books_hire] at hAlive
      simp only [Books.hire, Function.update_apply] at hAlive
      split at hAlive
      next hNew => exact .inl hNew
      · exact .inr (alive_iff.mpr hAlive)

theorem effect_stop : Effect t .stop (t.perform .stop) := by
  simp only [perform, stop, Client.advance, Client.perform, Client.isReady, Client.act,
    Client.stopWorker, if_true]
  cases hRunning : t.client.running with
  | none => exact .miss _ hRunning hRunning (fun _ => id) rfl rfl
  | some w =>
      refine .take w _ _ hRunning rfl (fun other hAlive => ?_) rfl rfl
      rw [alive_iff] at hAlive ⊢
      refine fun hNone => hAlive ?_
      simp only [Advance.result, t.client.books_dismiss w, Books.dismiss, Function.update_apply]
      split
      next hSame => rw [← hSame, hNone, Option.map_none]
      · exact hNone

/-- A shutdown that has taken a worker out waits until that has stopped. -/
theorem effect_advance {i : Nat}
    (hForm : ∀ stop ∈ t.stops, stop.isOver ∨ ∃ w due, stop.todo = [.awaitWorker w due]) :
    Effect t (.advance i) (t.perform (.advance i)) := by
  simp only [perform, advance]
  cases hStop : t.stops[i]? with
  | none => exact .keep nofun rfl (fun _ => id) rfl
  | some stop =>
      obtain ⟨hLess, rfl⟩ := List.getElem?_eq_some_iff.mp hStop
      have hIdle : Effect t (.advance i) ⟨t.client, t.stops.set i t.stops[i]⟩ :=
        .keep nofun rfl (fun _ => id) (List.set_getElem_self hLess)
      dsimp only
      rcases hForm _ (List.getElem_mem hLess) with hOver | ⟨w, due, hTodo⟩
      · rwa [Client.advance_of_isOver hOver]
      · by_cases hReady : t.client.isReady t.stops[i].id (.awaitWorker w due)
        · obtain ⟨s', outcome, hStep, hBooks⟩ := t.client.awaitWorker_retires w
          simp only [Client.advance, hTodo, Client.perform, hReady, if_true, Client.act, hStep]
          exact .reap i w _ ⟨_, due, hStop, hTodo⟩ (congrArg Books.running hBooks)
            (fun _ => alive_of_retire hBooks) rfl rfl
        · rw [t.client.advance_of_waiting hTodo hReady]
          exact hIdle

theorem effect_work (worker : WorkerId) : Effect t (.work worker) (t.perform (.work worker)) := by
  simp only [perform]
  split
  · rcases t.client.books_stepWorker (w := worker) with hSame | ⟨-, hRetired⟩
    · refine .keep nofun (congrArg Books.running hSame) (fun w hAlive => ?_) rfl
      rw [alive_iff] at hAlive ⊢
      rwa [← hSame]
    · exact .keep nofun (congrArg Books.running hRetired)
        (fun _ hAlive => (alive_of_retire hRetired hAlive).1) rfl
  · exact .keep nofun rfl (fun _ => id) rfl

/-- Every worker that is alive is the one that a start or a shutdown finds, or a shutdown waits for
it. -/
structure Posted (t : Upkeep) : Prop where
  form : ∀ stop ∈ t.stops, stop.isOver ∨ ∃ w due, stop.todo = [.awaitWorker w due]
  claimed : ∀ w, t.Alive w → t.client.running = some w ∨ ∃ i, t.Awaits i w

variable {t}

theorem Posted.effect (h : t.Posted) (call : Call) : Effect t call (t.perform call) := by
  cases call with
  | start => exact t.effect_start
  | stop => exact t.effect_stop
  | advance i => exact t.effect_advance h.form
  | work worker => exact t.effect_work worker
  | wait millis => exact .keep nofun rfl (fun _ => id) rfl
  | change surroundings => exact .keep nofun rfl (fun _ => id) rfl

section Waiting

variable {i j : Nat} {other : WorkerId} {stop : Activity}

theorem Awaits.unique (h : t.Awaits i w) (hOther : t.Awaits i other) : other = w := by
  obtain ⟨stop, due, hStop, hTodo⟩ := h
  obtain ⟨stop', due', hStop', hTodo'⟩ := hOther
  cases hStop.symm.trans hStop'
  cases hTodo.symm.trans hTodo'
  rfl

theorem Awaits.not_returned (h : t.Awaits i w) : ¬t.Returned i := by
  rintro ⟨stop, hStop, hOver⟩
  obtain ⟨stop', due, hStop', hTodo⟩ := h
  cases hStop.symm.trans hStop'
  cases hTodo.symm.trans (List.isEmpty_iff.mp hOver)

theorem Awaits.of_append {t' : Upkeep} (hStops : t'.stops = t.stops ++ [stop])
    (h : t.Awaits i w) : t'.Awaits i w := by
  obtain ⟨stop', due, hStop, hTodo⟩ := h
  obtain ⟨hLess, -⟩ := List.getElem?_eq_some_iff.mp hStop
  exact ⟨stop', due, by rw [hStops, List.getElem?_append_left hLess, hStop], hTodo⟩

theorem Awaits.of_set {t' : Upkeep} (hStops : t'.stops = t.stops.set j stop) (hOther : i ≠ j)
    (h : t.Awaits i w) : t'.Awaits i w := by
  obtain ⟨stop', due, hStop, hTodo⟩ := h
  exact ⟨stop', due, by rw [hStops, List.getElem?_set_ne hOther.symm, hStop], hTodo⟩

end Waiting

theorem Effect.posted {call : Call} {t' : Upkeep} (hEffect : Effect t call t') (h : t.Posted) :
    t'.Posted := by
  obtain ⟨hForm, hClaimed⟩ := h
  cases hEffect with
  | keep hCall hRunning hAlive hStops =>
      refine ⟨hStops ▸ hForm, fun w hw => ?_⟩
      rw [hRunning]
      simp only [Awaits, hStops]
      exact hClaimed w (hAlive w hw)
  | hire new hVacant hRunning hAlive hStops =>
      refine ⟨hStops ▸ hForm, fun w hw => ?_⟩
      rcases hAlive w hw with rfl | hBefore
      · exact .inl hRunning
      · simp only [Awaits, hStops]
        exact .inr ((hClaimed w hBefore).resolve_left fun hw => hVacant w hw hBefore)
  | take taken stop due hBefore hRunning hAlive hStops hTodo =>
      refine ⟨fun other hm => ?_, fun w hw => .inr ?_⟩
      · rw [hStops, List.mem_append, List.mem_singleton] at hm
        exact hm.elim (hForm other) fun hNew => hNew ▸ .inr ⟨taken, due, hTodo⟩
      · rcases hClaimed w (hAlive w hw) with hFound | ⟨i, hAwaits⟩
        · cases hBefore.symm.trans hFound
          exact ⟨t.stops.length, stop, due, hStops ▸ List.getElem?_concat_length, hTodo⟩
        · exact ⟨i, hAwaits.of_append hStops⟩
  | miss stop hBefore hRunning hAlive hStops hTodo =>
      refine ⟨fun other hm => ?_, fun w hw => ?_⟩
      · rw [hStops, List.mem_append, List.mem_singleton] at hm
        exact hm.elim (hForm other) fun hNew => hNew ▸ .inl (List.isEmpty_iff.mpr hTodo)
      · rw [hRunning, ← hBefore]
        exact (hClaimed w (hAlive w hw)).imp_right
          fun ⟨i, hAwaits⟩ => ⟨i, hAwaits.of_append hStops⟩
  | reap i reaped stop hAwaits hRunning hAlive hStops hTodo =>
      refine ⟨fun other hm => ?_, fun w hw => ?_⟩
      · rw [hStops] at hm
        rcases List.mem_or_eq_of_mem_set hm with hm | rfl
        · exact hForm other hm
        · exact .inl (List.isEmpty_iff.mpr hTodo)
      · obtain ⟨hBefore, hOther⟩ := hAlive w hw
        rw [hRunning]
        refine (hClaimed w hBefore).imp_right fun ⟨j, hj⟩ => ⟨j, hj.of_set hStops ?_⟩
        rintro rfl
        exact hOther (hAwaits.unique hj)

/-- A shutdown has left no worker alive but the one that it waits for. -/
structure Emptied (t : Upkeep) (i : Nat) : Prop where
  vacant : t.client.running = none
  awaited : ∀ w, t.Alive w → t.Awaits i w

theorem Effect.emptied_of_stop {t' : Upkeep} (hEffect : Effect t .stop t') (hTended : t.Tended) :
    t'.Emptied t.stops.length := by
  cases hEffect with
  | keep hCall => exact absurd rfl hCall
  | take taken stop due hBefore hRunning hAlive hStops hTodo =>
      refine ⟨hRunning, fun w hw => ?_⟩
      cases hBefore.symm.trans (hTended w (hAlive w hw))
      exact ⟨stop, due, hStops ▸ List.getElem?_concat_length, hTodo⟩
  | miss stop hBefore hRunning hAlive hStops hTodo =>
      refine ⟨hRunning, fun w hw => ?_⟩
      cases hBefore.symm.trans (hTended w (hAlive w hw))

theorem Effect.emptied {call : Call} {t' : Upkeep} {i : Nat} (hEffect : Effect t call t')
    (h : t.Emptied i) (hCall : call ≠ .start) : t'.Emptied i := by
  obtain ⟨hVacant, hAwaited⟩ := h
  cases hEffect with
  | keep _ hRunning hAlive hStops =>
      refine ⟨hRunning.trans hVacant, fun w hw => ?_⟩
      simp only [Awaits, hStops]
      exact hAwaited w (hAlive w hw)
  | hire => exact absurd rfl hCall
  | take taken stop due hBefore => cases hBefore.symm.trans hVacant
  | miss stop hBefore hRunning hAlive hStops hTodo =>
      exact ⟨hRunning, fun w hw => (hAwaited w (hAlive w hw)).of_append hStops⟩
  | reap j reaped stop hAwaits hRunning hAlive hStops hTodo =>
      refine ⟨hRunning.trans hVacant, fun w hw => ?_⟩
      obtain ⟨hBefore, hOther⟩ := hAlive w hw
      refine (hAwaited w hBefore).of_set hStops ?_
      rintro rfl
      exact hOther (hAwaits.unique (hAwaited w hBefore))

/-- No two workers are alive. -/
def Single (t : Upkeep) : Prop :=
  ∀ w other, t.Alive w → t.Alive other → w = other

theorem Effect.single {call : Call} {t' : Upkeep} (hEffect : Effect t call t') (h : t.Single)
    (hTended : StartsTended (t, call)) : t'.Single := by
  -- Whoever was alive before is the only one, or else has to be the new one.
  have hMono : (∀ w, t'.Alive w → t.Alive w) → t'.Single :=
    fun hAlive w other hw hOther => h w other (hAlive w hw) (hAlive other hOther)
  cases hEffect with
  | keep hCall hRunning hAlive => exact hMono hAlive
  | hire new hVacant hRunning hAlive =>
      have hNew : ∀ w, t'.Alive w → w = new := fun w hw =>
        (hAlive w hw).resolve_right fun hBefore => hVacant w (hTended w hBefore) hBefore
      exact fun w other hw hOther => (hNew w hw).trans (hNew other hOther).symm
  | take taken stop due hBefore hRunning hAlive => exact hMono hAlive
  | miss stop hBefore hRunning hAlive => exact hMono hAlive
  | reap i reaped stop hAwaits hRunning hAlive => exact hMono fun w hw => (hAlive w hw).1

end Steps

section Runs

variable {s : Client} (hTended : (fresh s).Tended)
include hTended

theorem posted_of_run (calls : List Call) : (run (fresh s) calls).Posted := by
  induction calls using List.reverseRecOn with
  | nil => exact ⟨nofun, fun w hw => .inl (hTended w hw)⟩
  | append_singleton calls call ih =>
      rw [run, History.run_concat, ← run]
      exact (ih.effect call).posted ih

theorem single_of_run (calls : List Call)
    (hStarts : ∀ step ∈ steps (fresh s) calls, StartsTended step) :
    (run (fresh s) calls).Single := by
  induction calls using List.reverseRecOn with
  | nil =>
      intro w other hw hOther
      exact Option.some.inj ((hTended w hw).symm.trans (hTended other hOther))
  | append_singleton calls call ih =>
      rw [steps, History.steps_concat, ← steps, List.forall_mem_append] at hStarts
      rw [run, History.run_concat, ← run]
      exact ((posted_of_run hTended calls).effect call).single (ih hStarts.1)
        (hStarts.2 _ (List.mem_singleton_self _))

theorem emptied_of_run (before after : List Call) (hFound : (run (fresh s) before).Tended)
    (hNoStart : .start ∉ after) :
    (run (fresh s) (before ++ .stop :: after)).Emptied (run (fresh s) before).stops.length := by
  induction after using List.reverseRecOn with
  | nil =>
      rw [run, History.run_concat, ← run]
      exact ((posted_of_run hTended before).effect .stop).emptied_of_stop hFound
  | append_singleton after call ih =>
      rw [List.mem_append, not_or] at hNoStart
      have hPosted := posted_of_run hTended (before ++ .stop :: after)
      rw [← List.cons_append, ← List.append_assoc, run, History.run_concat, ← run]
      refine (hPosted.effect call).emptied (ih hNoStart.1) ?_
      rintro rfl
      exact hNoStart.2 (List.mem_singleton_self _)

end Runs

end Upkeep

/-- However starts and shutdowns of the worker overlap, whoever is alive is the worker that the next
start or shutdown finds, or a shutdown waits for it. At most one is alive as long as a start is
called only when no worker is that a shutdown has taken out. A shutdown that is called at such a
moment leaves no worker alive when it returns, until the next start. -/
theorem worker_is_tended {s : Client} (hTended : (Upkeep.fresh s).Tended)
    (calls : List Upkeep.Call) :
    let start := Upkeep.fresh s
    let t := start.run calls
    (∀ w, t.Alive w → t.client.running = some w ∨ ∃ i, t.Awaits i w ∧ ¬t.Returned i) ∧
      ((∀ step ∈ start.steps calls, Upkeep.StartsTended step) →
        ∀ w other, t.Alive w → t.Alive other → w = other) ∧
      ∀ before after, calls = before ++ .stop :: after → (start.run before).Tended →
        .start ∉ after → t.Returned (start.run before).stops.length → ∀ w, ¬t.Alive w := by
  refine ⟨fun w hw => ?_, Upkeep.single_of_run hTended calls, ?_⟩
  · exact ((Upkeep.posted_of_run hTended calls).claimed w hw).imp_right
      fun ⟨i, hAwaits⟩ => ⟨i, hAwaits, hAwaits.not_returned⟩
  · rintro before after rfl hFound hNoStart hReturned w hw
    have hEmptied := Upkeep.emptied_of_run hTended before after hFound hNoStart
    exact (hEmptied.awaited w hw).not_returned hReturned

namespace Upkeep

/-- One cache takes part in reconciliation, and the only member takes ten seconds to report. -/
def slowMember : Surroundings where
  cluster := { Cluster.ofSize 1 with
    members := #[⟨Cluster.localAddress 0, .empty, some 10000, false, false⟩] }
  caches := (∅ : Std.ExtTreeMap CacheId Cache).insert 0
    (Cache.create "orders" (.ofName "orders") .default).markPushUnavailable
  directory := (∅ : Std.ExtTreeMap String CacheId).insert "orders" 0

/-- A worker that was started waits for the member. -/
def untilFetching : List Call :=
  [.change slowMember, .wait 60000, .work 0]

/-- A shutdown waits for the worker, which takes the report and stops. -/
def untilStopped : List Call :=
  [.wait 10000, .work 0, .work 0, .advance 0]

/-- A client without workers. -/
def unstaffed : Client :=
  .create (.ofList [.ofName "orders"]) .default (.ofSize 1)

end Upkeep

/-- A shutdown outlasts a slow member, and the next start hires the only worker. -/
theorem worker_is_tended_until_restart :
    let start := Upkeep.fresh Upkeep.unstaffed
    let t := start.run (.start :: Upkeep.untilFetching ++ .stop :: Upkeep.untilStopped)
    t.Returned 0 ∧ (∀ w, ¬t.Alive w) ∧
      ((t.perform .start).Alive 1 ∧ ∀ w, (t.perform .start).Alive w → w = 1) := by
  obtain ⟨calls, hCalls⟩ : ∃ calls,
      calls = .start :: Upkeep.untilFetching ++ .stop :: Upkeep.untilStopped := ⟨_, rfl⟩
  have hTended : (Upkeep.fresh Upkeep.unstaffed).Tended := by
    rintro w ⟨worker, hWorker, -⟩
    simp [Upkeep.fresh, Upkeep.unstaffed, Client.create] at hWorker
  have hFound : ((Upkeep.fresh Upkeep.unstaffed).run (.start :: Upkeep.untilFetching)).Tended := by
    intro w hw
    refine ((worker_is_tended hTended (.start :: Upkeep.untilFetching)).1 w hw).resolve_right ?_
    rintro ⟨i, ⟨stop, due, hStop, -⟩, -⟩
    cases hStop
  have hReturned : ((Upkeep.fresh Upkeep.unstaffed).run calls).Returned 0 := by
    rw [hCalls]
    decide
  have hNone : ∀ w, ¬((Upkeep.fresh Upkeep.unstaffed).run calls).Alive w :=
    (worker_is_tended hTended calls).2.2 _ _ hCalls hFound (by simp [Upkeep.untilStopped]) hReturned
  have hStarts : ∀ step ∈ (Upkeep.fresh Upkeep.unstaffed).steps (calls ++ [.start]),
      Upkeep.StartsTended step := by
    rw [Upkeep.steps, History.steps_concat, ← Upkeep.steps, ← Upkeep.run, List.forall_mem_append,
      List.forall_mem_singleton]
    refine ⟨?_, fun w hw => absurd hw (hNone w)⟩
    rw [hCalls]
    refine List.forall_mem_cons.mpr ⟨hTended, ?_⟩
    exact Upkeep.startsTended_of_not_mem (by simp [Upkeep.untilFetching, Upkeep.untilStopped])
  have hSingle := (worker_is_tended hTended (calls ++ [.start])).2.1 hStarts
  rw [Upkeep.run, History.run_concat, ← Upkeep.run] at hSingle
  have hHired : (((Upkeep.fresh Upkeep.unstaffed).run calls).perform .start).Alive 1 := by
    rw [hCalls]
    decide
  rw [← hCalls]
  exact ⟨hReturned, hNone, hHired, fun w hw => hSingle w 1 hw hHired⟩

/-- While a shutdown waits for a worker that asks a slow member, another shutdown returns at once,
although the worker is alive, and a start hires a second one beside it. -/
theorem worker_outlives_shutdown :
    let start := Upkeep.fresh Upkeep.unstaffed
    let waiting := (start.run (.start :: Upkeep.untilFetching)).perform .stop
    let again := waiting.perform .stop
    (again.Returned 1 ∧ again.Alive 0) ∧
      (waiting.perform .start).Alive 0 ∧ (waiting.perform .start).Alive 1 := by
  decide

end NearCache
