import NearCache.Proofs.Client.Passes
import NearCache.Proofs.Client.Shutdown
import NearCache.Proofs.Cluster.FanOut

/-!
Fetching the reports of all members. The members are asked at the same time, and whatever goes on in the
background meanwhile, the fetch is polled no later than the next reply is due. So it gets what each member
contributes.
-/

namespace NearCache

section Setting

namespace Cluster

variable (c : Cluster)

theorem members_askAll (now deadline : Nat) (limit : Duration) (request : Request)
    (places : List Nat) :
    (c.askAll now deadline limit request places).1.members = c.members := by
  induction places generalizing c with
  | nil => rfl
  | cons place rest ih =>
      simp only [askAll]
      split
      · rfl
      · exact ih _

theorem members_carryOut (request : Request) : (c.carryOut request).1.members = c.members := by
  cases request with
  | addListener cacheName shape atHome =>
      simp only [carryOut]
      split <;> rfl
  | _ => rfl

theorem faults_carryOut (request : Request) : (c.carryOut request).1.faults = c.faults := by
  cases request with
  | addListener cacheName shape atHome =>
      simp only [carryOut]
      split <;> rfl
  | _ => rfl

/-- A member answers a request without a change, or as the cluster answers it. -/
theorem answerAt_cases (place : Nat) (refused : Bool) (request : Request) :
    (c.answerAt place refused request).1 = c ∨
      (c.answerAt place refused request).1 = (c.carryOut request).1 := by
  cases refused with
  | true => exact Or.inl rfl
  | false =>
      cases request with
      | fetchMetadata names =>
          left
          simp only [answerAt]
          cases (c.memberAt place).confused <;> rfl
      | _ =>
          right
          simp only [answerAt, Bool.false_eq_true, if_false]
          split
          · split <;> rfl
          · rfl

end Cluster

namespace Client

/-- What no activity and no worker changes: the time, the members, and the failures switched on. -/
def setting (s : Client) : Nat × Array Member × ClusterFaults :=
  (s.now, s.cluster.members, s.cluster.faults)

variable {s : Client}

theorem setting_withCluster {c : Cluster} (hMembers : c.members = s.cluster.members)
    (hFaults : c.faults = s.cluster.faults) : (s.withCluster c).setting = s.setting := by
  simp only [setting, withCluster, hMembers, hFaults]

theorem setting_beginRound (names : List String) (limit : Duration) :
    (s.withCluster (s.cluster.beginRound s.now names limit).1).setting = s.setting :=
  setting_withCluster (s.cluster.members_askAll _ _ _ _ _)
    (s.cluster.sameListeners_beginRound _ _ _).2.2.2

theorem setting_answer (request : Request) :
    (s.withCluster (s.cluster.answer request).1).setting = s.setting :=
  setting_withCluster (s.cluster.members_carryOut request) (s.cluster.faults_carryOut request)

theorem setting_unwind (todo : List Action) : (s.unwind todo).setting = s.setting := by
  induction todo generalizing s with
  | nil => rfl
  | cons action rest ih =>
      rw [unwind, List.foldl_cons, ← unwind, ih]
      cases action <;> rfl

theorem setting_awaitListener (id : CacheId) (shape : EventShape) (followUp : FollowUp) :
    (s.awaitListener id shape followUp).client.setting = s.setting := by
  unfold awaitListener
  cases s.caches[id]? with
  | none => rfl
  | some cache =>
      have hAnswer := s.setting_answer (.addListener cache.name shape true)
      dsimp only
      cases listenerResult cache shape (.addListener cache.name shape true)
        (s.cluster.answer (.addListener cache.name shape true)).2 with
      | error e => cases followUp <;> exact hAnswer
      | ok subscription =>
          obtain ⟨_, _, negotiated⟩ := subscription
          cases followUp <;> cases negotiated <;> exact hAnswer

theorem setting_awaitRound (round : Round) (again : Round → Action) {finish : Round → Progress}
    (hFinish : ∀ round, (finish round).client.setting = s.setting) :
    (s.awaitRound round again finish).client.setting = s.setting := by
  unfold awaitRound
  split
  · rfl
  · split
    · exact hFinish _
    · rfl

theorem setting_awaitRemoval (request : Request) (lost : Bool) :
    (s.awaitRemoval request lost).client.setting = s.setting := by
  cases lost with
  | true => rfl
  | false => exact s.setting_answer request

theorem setting_seed (id : CacheId) (limit : Duration) :
    (s.seed id limit).client.setting = s.setting := by
  unfold seed
  cases s.caches[id]? with
  | none => rfl
  | some cache =>
      have hAsked := s.setting_beginRound [cache.name] limit
      dsimp only
      split <;> exact hAsked

theorem setting_awaitCall (call : Call) : (s.awaitCall call).client.setting = s.setting := by
  unfold awaitCall
  split
  · rfl
  · rcases s.cluster.answerAt_cases call.place call.refused call.request with hSame | hSame
    · exact congrArg (fun c => (s.withCluster c).setting) hSame
    · exact (congrArg (fun c => (s.withCluster c).setting) hSame).trans (s.setting_answer call.request)

theorem setting_act (me : ActivityId) (action : Action) :
    (s.act me action).client.setting = s.setting := by
  cases action with
  | awaitListener id shape due followUp => exact setting_awaitListener id shape followUp
  | awaitSeed id round => exact setting_awaitRound round _ fun _ => rfl
  | awaitFetch round => exact setting_awaitRound round _ fun _ => rfl
  | awaitAnswer request due => exact s.setting_answer request
  | awaitRemoval request lost => exact setting_awaitRemoval request lost
  | awaitCall call => exact setting_awaitCall call
  | seed id limit => exact setting_seed id limit
  | fetch names limit =>
      have hAsked := s.setting_beginRound names limit
      simp only [act]
      split <;> exact hAsked
  | findOrCreate name =>
      simp only [act, openCache]
      split
      · rfl
      · split
        · rfl
        · split <;> rfl
  | enterSetup id | sealSetup id | unsubscribe id | resubscribe id | send request place =>
      simp only [act, enterSetup, sealSetup, unsubscribe, resubscribe, send]
      split
      · rfl
      · split <;> rfl
  | startWorker =>
      simp only [act, Client.startWorker]
      split <;> rfl
  | handOut name id | subscribe id followUp | stopWorker | awaitWorker worker due | destroy name =>
      simp only [act, handOut, subscribe, stopWorker, awaitWorker, destroyCache]
      split <;> rfl
  | finishSetup id | release id | close | destroyAll | resubscribeAll | sleep due
  | conclude outcome => rfl

theorem setting_perform (me : ActivityId) (action : Action) :
    (s.perform me action).client.setting = s.setting := by
  unfold perform
  split
  · exact setting_act me action
  · cases action <;> rfl

theorem setting_advance (a : Activity) : (s.advance a).result.1.setting = s.setting := by
  unfold advance
  split
  · rfl
  next action rest hTodo =>
    have hPerformed := setting_perform (s := s) a.id action
    split
    next hProgress => rwa [hProgress] at hPerformed
    next hProgress => rwa [hProgress] at hPerformed
    next hProgress =>
      rw [hProgress] at hPerformed
      exact (setting_unwind _).trans hPerformed

theorem setting_repairGaps (ids : List CacheId) : (s.repairGaps ids).1.setting = s.setting := by
  obtain ⟨caches, hSame⟩ := s.repairGaps_eq ids
  rw [hSame]
  rfl

theorem setting_setStage (id : WorkerId) (stage : WorkerStage) :
    (s.setStage id stage).setting = s.setting :=
  rfl

theorem setting_endPass (id : WorkerId) : (s.endPass id).setting = s.setting :=
  rfl

theorem setting_failPass (id : WorkerId) : (s.failPass id).setting = s.setting :=
  rfl

theorem setting_putBack (ids : List CacheId) (caches : List Cache) :
    (s.putBack ids caches).setting = s.setting :=
  rfl

theorem setting_beginPass (id : WorkerId) (w : Worker) : (s.beginPass id w).setting = s.setting := by
  have hRepaired := setting_repairGaps (s := s) s.coherentCaches
  unfold beginPass
  dsimp only
  split
  · rw [setting_endPass]
    exact hRepaired
  · split
    · rw [setting_setStage, setting_beginRound]
      exact hRepaired
    · rw [setting_failPass, setting_beginRound]
      exact hRepaired

theorem setting_finishRound (id : WorkerId) (ids : List CacheId) (round : Round) :
    (s.finishRound id ids round).setting = s.setting := by
  unfold finishRound
  dsimp only
  split
  · rw [setting_failPass, setting_putBack]
  · rfl

theorem setting_stepWorker (id : WorkerId) : (s.stepWorker id).1.setting = s.setting := by
  unfold stepWorker
  split
  · rfl
  next w hWorker =>
    split
    · dsimp only
      split
      · rfl
      · exact setting_beginPass id w
    · unfold takeReplies
      split
      · rfl
      · split
        · exact setting_finishRound _ _ _
        · rfl
    · rfl
    · rfl
    · rfl

end Client

namespace Schedule

variable (s : Schedule)

theorem client_enlist : s.enlist.client = s.client := by
  have hEach (ids : List WorkerId) (t : Schedule) :
      (ids.foldl (fun t id => t.enqueue (.worker id)) t).client = t.client := by
    induction ids generalizing t with
    | nil => rfl
    | cons id ids ih => exact ih (t.enqueue (.worker id))
  exact hEach _ s

theorem client_follow (client : Client) : (s.follow client).client = client :=
  client_enlist _

theorem client_park (w : Waiter) (moved : Bool) : (s.park w moved).client = s.client := by
  cases moved <;> rfl

variable {s}

theorem setting_runActivity (fuel : Nat) (a : Activity) (moved : Bool) :
    (s.runActivity fuel a moved).1.client.setting = s.client.setting := by
  induction fuel generalizing s a moved with
  | zero => rfl
  | succ fuel ih =>
      have hAdvance := Client.setting_advance (s := s.client) a
      unfold runActivity
      split
      next client a' hAdvanced =>
        rw [hAdvanced] at hAdvance
        rw [client_follow]
        exact hAdvance
      next client a' hAdvanced =>
        rw [hAdvanced] at hAdvance
        rw [ih, client_follow]
        exact hAdvance

theorem setting_runWorker (fuel : Nat) (id : WorkerId) (moved : Bool) :
    (s.runWorker fuel id moved).1.client.setting = s.client.setting := by
  induction fuel generalizing s moved with
  | zero => rfl
  | succ fuel ih =>
      have hStep := Client.setting_stepWorker (s := s.client) id
      unfold runWorker
      split
      · split
        next client hStepped =>
          rw [hStepped] at hStep
          rw [ih, client_follow]
          exact hStep
        next client hStepped =>
          rw [hStepped] at hStep
          rw [client_follow]
          exact hStep
      · rfl

theorem setting_runJob (fuel : Nat) (w : Waiter) :
    (s.runJob fuel w).client.setting = s.client.setting := by
  unfold runJob
  split
  · dsimp only
    split
    · exact setting_runActivity fuel _ false
    · rw [client_park]
      exact setting_runActivity fuel _ false
  · dsimp only
    split
    · exact setting_runWorker fuel _ false
    · rw [client_park]
      exact setting_runWorker fuel _ false

/-- However long the background takes its turns, no time passes. -/
theorem setting_settle (fuel : Nat) : (s.settle fuel).client.setting = s.client.setting := by
  induction fuel generalizing s with
  | zero => rfl
  | succ fuel ih =>
      unfold settle
      split
      next fuel' w rest hFuel hQueue =>
        cases hFuel
        rw [ih]
        exact setting_runJob fuel w
      · rfl

end Schedule

end Setting

section Fetch

variable {c : Cluster} {start : Nat} {names : List String} {limit : Duration} {s : Client}
  {a : Activity} {round : Round}

/-- What a fetch under a limit brings from all members of a cluster. -/
def Cluster.fetched (c : Cluster) (limit : Duration) : Outcome :=
  .fetched (c.members.toList.filterMap (Member.contribution? limit))
    (c.members.toList.countP fun m => (m.contribution? limit).isNone)

namespace Client

theorem advance_fetch (hSteady : c.faults.breakDown = false) (hMembers : s.cluster.members = c.members)
    (hFaults : s.cluster.faults = c.faults) (hTodo : a.todo = [.fetch names limit]) :
    ∃ round, (s.cluster.beginRound s.now names limit).2 = .ok round ∧
      s.advance a = .moved (s.withCluster (s.cluster.beginRound s.now names limit).1)
        { a with todo := [.awaitFetch round] } ∧
      round.OnCourse c s.now limit names ∧ ∀ due, round.wakes = some due → s.now < due := by
  obtain ⟨round, hBegun, hCourse⟩ :=
    Cluster.beginRound_onCourse hSteady hMembers hFaults s.now names limit
  refine ⟨round, hBegun, ?_, hCourse⟩
  have hPerform : s.perform a.id (.fetch names limit) =
      .moved (s.withCluster (s.cluster.beginRound s.now names limit).1) [.awaitFetch round] none := by
    simp only [perform, isReady, if_true, act, hBegun]
  simp only [advance, hTodo, hPerform]
  rfl

/-- A fetch that is not late goes on as it should: it is over, with what the members contribute, or has
to wait for a later reply. -/
theorem advance_awaitFetch (hSteady : c.faults.breakDown = false)
    (hMembers : s.cluster.members = c.members) (hTodo : a.todo = [.awaitFetch round])
    (hCourse : round.OnCourse c start limit names)
    (hInTime : ∀ due, round.wakes = some due → s.now ≤ due) :
    s.advance a = .moved s { a with todo := [], outcome := c.fetched limit } ∨
      ∃ round' due, s.advance a = .waiting s { a with todo := [.awaitFetch round'] } ∧
        round'.OnCourse c start limit names ∧ round'.wakes = some due ∧ s.now < due := by
  by_cases hReady : round.isReady s.now
  · obtain ⟨round', hPolled, hCourse', hAhead⟩ := hCourse.poll hSteady hMembers hInTime
    by_cases hDone : round'.isDone
    · left
      have hPerform : s.perform a.id (.awaitFetch round) = .moved s [] (some (c.fetched limit)) := by
        simp only [perform, isReady, hReady, if_true, act, awaitRound, hPolled, hDone]
        rw [hCourse'.reports hDone, hCourse'.failures hDone]
        rfl
      simp only [advance, hTodo, hPerform]
      rfl
    · right
      have hPerform : s.perform a.id (.awaitFetch round) = .waiting s (.awaitFetch round') := by
        simp only [perform, isReady, hReady, if_true, act, awaitRound, hPolled, hDone]
        rfl
      cases hWakes : round'.wakes with
      | none => exact absurd (Round.wakes_eq_none_iff.mp hWakes) hDone
      | some due =>
          refine ⟨round', due, ?_, hCourse', hWakes, hAhead due hWakes⟩
          simp only [advance, hTodo, hPerform]
  · right
    have hPerform : s.perform a.id (.awaitFetch round) = .waiting s (.awaitFetch round) := by
      simp only [perform, isReady, hReady]
      rfl
    cases hWakes : round.wakes with
    | none => simp [Round.isReady, hWakes] at hReady
    | some due =>
        refine ⟨round, due, ?_, hCourse, hWakes, by simpa [Round.isReady, hWakes] using hReady⟩
        simp only [advance, hTodo, hPerform]

end Client

/-- A fetch from the members of a cluster is on its way: its round is not late, and its outcome is the
right one once it is over. -/
inductive Fetches (c : Cluster) (names : List String) (limit : Duration) (s : Client) (a : Activity) :
    Prop
  | asking (hTodo : a.todo = [.fetch names limit])
  | waiting (round : Round) (start : Nat) (hTodo : a.todo = [.awaitFetch round])
      (hCourse : round.OnCourse c start limit names)
      (hInTime : ∀ due, round.wakes = some due → s.now ≤ due)
  | ended (hTodo : a.todo = []) (hOutcome : a.outcome = c.fetched limit)

namespace Fetches

theorem advance (h : Fetches c names limit s a) (hSteady : c.faults.breakDown = false)
    (hMembers : s.cluster.members = c.members) (hFaults : s.cluster.faults = c.faults) :
    Fetches c names limit (s.advance a).result.1 (s.advance a).result.2 := by
  cases h with
  | asking hTodo =>
      obtain ⟨round, -, hAdvance, hCourse, hAhead⟩ :=
        Client.advance_fetch hSteady hMembers hFaults hTodo
      rw [hAdvance]
      exact .waiting round s.now rfl hCourse fun due hWakes => Nat.le_of_lt (hAhead due hWakes)
  | waiting round start hTodo hCourse hInTime =>
      obtain hAdvance | ⟨round', due, hAdvance, hCourse', hWakes, hAhead⟩ :=
        Client.advance_awaitFetch hSteady hMembers hTodo hCourse hInTime
      · rw [hAdvance]
        exact .ended rfl rfl
      · rw [hAdvance]
        refine .waiting round' start rfl hCourse' fun due' hDue => ?_
        rw [hWakes] at hDue
        cases hDue
        exact Nat.le_of_lt hAhead
  | ended hTodo hOutcome =>
      rw [Client.advance_of_isOver (List.isEmpty_iff.mpr hTodo)]
      exact .ended hTodo hOutcome

/-- Where the setting is the same, the fetch is on its way still. -/
theorem keep {s' : Client} (h : Fetches c names limit s a) (hNow : s'.now = s.now) :
    Fetches c names limit s' a := by
  cases h with
  | asking hTodo => exact .asking hTodo
  | waiting round start hTodo hCourse hInTime =>
      refine .waiting round start hTodo hCourse fun due hWakes => ?_
      rw [hNow]
      exact hInTime due hWakes
  | ended hTodo hOutcome => exact .ended hTodo hOutcome

/-- Time that moves on no further than to what the fetch waits for does not make it late. -/
theorem wait {now : Nat} (h : Fetches c names limit s a)
    (hNext : ∀ due, a.wakes = some due → now ≤ due) :
    Fetches c names limit { s with now := max s.now now } a := by
  cases h with
  | asking hTodo => exact .asking hTodo
  | waiting round start hTodo hCourse hInTime =>
      refine .waiting round start hTodo hCourse fun due hWakes => ?_
      have hWakes' : a.wakes = some due := by
        rw [Activity.wakes, hTodo]
        exact hWakes
      exact Nat.max_le.mpr ⟨hInTime due hWakes, hNext due hWakes'⟩
  | ended hTodo hOutcome => exact .ended hTodo hOutcome

theorem outcome (h : Fetches c names limit s a) (hOver : a.isOver) : a.outcome = c.fetched limit := by
  cases h with
  | asking hTodo => simp [Activity.isOver, hTodo] at hOver
  | waiting round start hTodo hCourse hInTime => simp [Activity.isOver, hTodo] at hOver
  | ended hTodo hOutcome => exact hOutcome

end Fetches

section Foreground

variable {t : Schedule}

theorem Fetches.runActivity (h : Fetches c names limit t.client a) (hSteady : c.faults.breakDown = false)
    (hMembers : t.client.cluster.members = c.members) (hFaults : t.client.cluster.faults = c.faults)
    (fuel : Nat) (moved : Bool) :
    Fetches c names limit (t.runActivity fuel a moved).1.client (t.runActivity fuel a moved).2.1 := by
  induction fuel generalizing t a moved with
  | zero => exact h
  | succ fuel ih =>
      have hAdvance := h.advance hSteady hMembers hFaults
      have hSetting := Client.setting_advance (s := t.client) a
      unfold Schedule.runActivity
      split
      next client a' hAdvanced =>
        rw [hAdvanced] at hAdvance
        exact hAdvance.keep (congrArg Client.now (t.client_follow client))
      next client a' hAdvanced =>
        rw [hAdvanced] at hAdvance hSetting
        have hSame := t.client_follow client
        apply ih
        · exact hAdvance.keep (congrArg Client.now hSame)
        · rw [hSame]
          exact (congrArg (·.2.1) hSetting).trans hMembers
        · rw [hSame]
          exact (congrArg (·.2.2) hSetting).trans hFaults

/-- Whatever goes on in the background, a fetch in the foreground stays on its way. -/
theorem Fetches.foreground (h : Fetches c names limit t.client a)
    (hSteady : c.faults.breakDown = false)
    (hMembers : t.client.cluster.members = c.members) (hFaults : t.client.cluster.faults = c.faults)
    (fuel : Nat) :
    Fetches c names limit (t.foreground fuel a).1.client (t.foreground fuel a).2 := by
  induction fuel generalizing t a with
  | zero => exact h
  | succ fuel ih =>
      have hRun := h.runActivity hSteady hMembers hFaults fuel false
      have hSetting := Schedule.setting_runActivity (s := t) fuel a false
      unfold Schedule.foreground
      dsimp only
      generalize t.runActivity fuel a false = run at hRun hSetting ⊢
      have hSettled := (Schedule.setting_settle (s := run.1) fuel).trans hSetting
      have hRun' : Fetches c names limit (run.1.settle fuel).client run.2.1 :=
        hRun.keep (congrArg (·.1) (Schedule.setting_settle (s := run.1) fuel))
      generalize run.1.settle fuel = settled at hSettled hRun'
      have hMembers' := (congrArg (·.2.1) hSettled).trans hMembers
      have hFaults' := (congrArg (·.2.2) hSettled).trans hFaults
      split
      · exact hRun
      · split
        · exact ih hRun' hMembers' hFaults'
        · split
          next due hNext =>
            have hClient : (settled.wait due).client =
                { settled.client with now := max settled.client.now due } := settled.client_follow _
            have hWaits : Fetches c names limit (settled.wait due).client run.2.1 := by
              rw [hClient]
              apply hRun'.wait
              intro due' hWakes
              apply (List.min?_eq_some_iff.mp hNext).2
              simp [hWakes]
            apply ih hWaits
            · rw [hClient]
              exact hMembers'
            · rw [hClient]
              exact hFaults'
          · exact hRun'

end Foreground

section Alone

/-- Nothing happens in the background of a client as long as no worker is hired. -/
theorem Schedule.follow_idle {s' : Client} (h : s'.nextWorker = s.nextWorker) :
    (idle s).follow s' = idle s' := by
  simp [follow, rouse, enlist, idle, h]

theorem Schedule.settle_idle (fuel : Nat) : (idle s).settle fuel = idle s := by
  cases fuel <;> rfl

/-- A fetch with nothing in the background goes on until it is over, or until a later reply. -/
theorem Schedule.runActivity_idle (hSteady : c.faults.breakDown = false)
    (hMembers : s.cluster.members = c.members) (hTodo : a.todo = [.awaitFetch round])
    (hCourse : round.OnCourse c start limit names)
    (hInTime : ∀ due, round.wakes = some due → s.now ≤ due) (fuel : Nat) (moved : Bool) :
    (∃ a' moved', (idle s).runActivity (fuel + 1) a moved = (idle s, a', moved') ∧ a'.isOver) ∨
      ∃ round' due, (idle s).runActivity (fuel + 1) a moved =
          (idle s, { a with todo := [.awaitFetch round'] }, moved) ∧
        round'.OnCourse c start limit names ∧ round'.wakes = some due ∧ s.now < due := by
  have hClient : (idle s).client = s := rfl
  obtain hAdvance | ⟨round', due, hAdvance, hRest⟩ :=
    Client.advance_awaitFetch hSteady hMembers hTodo hCourse hInTime
  · left
    rw [Schedule.runActivity, hClient, hAdvance]
    dsimp only
    rw [follow_idle rfl]
    cases fuel with
    | zero => exact ⟨_, _, rfl, rfl⟩
    | succ fuel =>
        rw [Schedule.runActivity]
        exact ⟨_, _, congrArg (·, _) (follow_idle rfl), rfl⟩
  · right
    rw [Schedule.runActivity, hClient, hAdvance]
    dsimp only
    rw [follow_idle rfl]
    exact ⟨round', due, rfl, hRest⟩

theorem Schedule.foreground_of_over {t t' : Schedule} {a' : Activity} {fuel : Nat} {moved : Bool}
    (hRun : t.runActivity fuel a false = (t', a', moved)) (hOver : a'.isOver) :
    t.foreground (fuel + 1) a = (t', a') := by
  rw [Schedule.foreground]
  simp only [hRun, hOver, if_true]

/-- Time goes on to the next reply, once everything waits. -/
theorem Schedule.foreground_idle_of_waiting {s' : Client} {a' : Activity} {fuel due : Nat} {moved : Bool}
    (hRun : (idle s).runActivity fuel a false = (idle s', a', moved))
    (hTodo : a'.todo = [.awaitFetch round]) (hWakes : round.wakes = some due) (hLater : s'.now < due) :
    (idle s).foreground (fuel + 1) a = (idle { s' with now := due }).foreground fuel a' := by
  have hOver : ¬a'.isOver := by simp [Activity.isOver, hTodo]
  have hReady : (idle s').client.activityIsReady a' = false := by
    simp [Client.activityIsReady, hTodo, Client.isReady, Round.isReady, hWakes, idle, hLater]
  have hNext : ((idle s').wakes.toList ++ a'.wakes.toList).min? = some due := by
    simp [Schedule.wakes, idle, Activity.wakes, hTodo, Action.wakes, hWakes]
  have hWait : (idle s').wait due = idle { s' with now := due } := by
    have hFollow : (idle s').wait due = idle { s' with now := max s'.now due } := follow_idle rfl
    rw [hFollow, Nat.max_eq_right (Nat.le_of_lt hLater)]
  simp only [Schedule.foreground, hRun, hOver, settle_idle, hReady, hNext, hWait]
  rfl

/-- A fetch with nothing in the background is over when the last reply is there, and asks nothing more. -/
theorem Schedule.foreground_idle (hSteady : c.faults.breakDown = false)
    (hMembers : s.cluster.members = c.members) (hTodo : a.todo = [.awaitFetch round])
    (hCourse : round.OnCourse c start limit names)
    (hInTime : ∀ due, round.wakes = some due → s.now ≤ due) {fuel : Nat}
    (hFuel : c.pending start limit s.now + 2 ≤ fuel) :
    ((idle s).foreground fuel a).2.isOver ∧
      ((idle s).foreground fuel a).1.client.cluster = s.cluster := by
  induction fuel generalizing s a round with
  | zero => omega
  | succ fuel ih =>
      obtain ⟨rest, rfl⟩ : ∃ rest, fuel = rest + 1 := ⟨fuel - 1, by omega⟩
      obtain ⟨a', moved', hRun, hOver⟩ | ⟨round', due, hRun, hCourse', hWakes, hLater⟩ :=
        runActivity_idle hSteady hMembers hTodo hCourse hInTime rest false
      · rw [foreground_of_over hRun hOver]
        exact ⟨hOver, rfl⟩
      · rw [foreground_idle_of_waiting hRun rfl hWakes hLater]
        have hFewer := Cluster.pending_lt hCourse' hWakes hLater
        refine ih (s := { s with now := due }) hMembers rfl hCourse' ?_ ?_
        · intro due' hDue
          rw [hWakes] at hDue
          exact Nat.le_of_eq (Option.some.inj hDue)
        · show c.pending start limit due + 2 ≤ rest + 1
          omega

/-- A fetch with nothing in the background is over at some time, and asks for nothing but the reports. -/
theorem Schedule.foreground_idle_of_fetch (hSteady : s.cluster.faults.breakDown = false)
    (hTodo : a.todo = [.fetch names limit]) {fuel : Nat}
    (hFuel : s.cluster.members.toList.length + 3 ≤ fuel) :
    ((idle s).foreground fuel a).2.isOver ∧ ((idle s).foreground fuel a).1.client.cluster.log =
      (s.cluster.beginRound s.now names limit).1.log := by
  obtain ⟨rest, rfl⟩ : ∃ rest, fuel = rest + 3 := ⟨fuel - 3, by omega⟩
  obtain ⟨round, -, hAdvance, hCourse, hAhead⟩ := Client.advance_fetch hSteady rfl rfl hTodo
  let s' := s.withCluster (s.cluster.beginRound s.now names limit).1
  let a' : Activity := { a with todo := [.awaitFetch round] }
  have hMembers : s'.cluster.members = s.cluster.members := s.cluster.members_askAll _ _ _ _ _
  have hBegun : (idle s).runActivity (rest + 2) a false =
      (idle s').runActivity (rest + 1) a' true := by
    have hFollow : (idle s).follow s' = idle s' := follow_idle rfl
    have hClient : (idle s).client = s := rfl
    rw [Schedule.runActivity, hClient, hAdvance]
    dsimp only
    rw [hFollow]
  have hTodo' : a'.todo = [.awaitFetch round] := rfl
  obtain ⟨a'', moved, hRun, hOver⟩ | ⟨round', due, hRun, hCourse', hWakes, hLater⟩ :=
    runActivity_idle hSteady hMembers hTodo' hCourse
      (fun due hWakes => Nat.le_of_lt (hAhead due hWakes)) rest true
  · rw [foreground_of_over (hBegun.trans hRun) hOver]
    exact ⟨hOver, rfl⟩
  · rw [foreground_idle_of_waiting (hBegun.trans hRun) rfl hWakes hLater]
    have hFewer := Cluster.pending_lt hCourse' hWakes hLater
    have hAll := s.cluster.pending_le s.now limit s'.now
    have hLength : s.cluster.members.toList.length = s.cluster.members.size := by simp
    have hInTime : ∀ due', round'.wakes = some due' → due ≤ due' := by
      intro due' hDue
      rw [hWakes] at hDue
      exact Nat.le_of_eq (Option.some.inj hDue)
    have hFuel' : s.cluster.pending s.now limit due + 2 ≤ rest + 2 := by omega
    have hEnd := foreground_idle (s := { s' with now := due })
      (a := { a' with todo := [.awaitFetch round'] }) hSteady hMembers rfl hCourse' hInTime hFuel'
    exact ⟨hEnd.1, congrArg Cluster.log hEnd.2⟩

end Alone

/-- Where one member changes, a fetch gets another contribution from this member, and the same from the
members before it and after it. -/
theorem Cluster.fetched_modifyMember {place : Nat} {m : Member} (hPlace : c.members[place]? = some m)
    (limit : Duration) :
    ∃ before after failures, ∀ change : Member → Member,
      (c.modifyMember place change).fetched limit =
        .fetched (before ++ ((change m).contribution? limit).toList ++ after)
          (failures + if ((change m).contribution? limit).isNone then 1 else 0) := by
  obtain ⟨hIn, rfl⟩ := Array.getElem?_eq_some_iff.mp hPlace
  let others := c.members.toList.take place ++ c.members.toList.drop (place + 1)
  refine ⟨(c.members.toList.take place).filterMap (Member.contribution? limit),
    (c.members.toList.drop (place + 1)).filterMap (Member.contribution? limit),
    others.countP fun m => (m.contribution? limit).isNone, fun change => ?_⟩
  have hMembers : (c.modifyMember place change).members.toList =
      c.members.toList.take place ++ change c.members[place] :: c.members.toList.drop (place + 1) := by
    rw [modifyMember, Array.toList_modify, List.modify_eq_take_cons_drop (by simpa using hIn)]
    simp
  rw [fetched, hMembers, List.filterMap_append, List.filterMap_cons, List.countP_append, List.countP_cons]
  cases (change c.members[place]).contribution? limit <;> simp [others, Nat.add_assoc]

/-- A fetch from all members of a cluster, none of which breaks down. Each member is asked once for its
report on the names, and nothing else is asked for. In whatever order the answers come, and whatever goes
on in the background, a fetch that is over has the reports of the members that neither fail nor are late,
in the order of the members, and has counted the other members. It is over at some time if nothing goes on
in the background. A change to one member changes the contribution of that member only. -/
theorem Client.fetch_collects (s : Client) (names : List String) (limit : Duration) (me : ActivityId)
    (hSteady : s.cluster.faults.breakDown = false) :
    let members := s.cluster.members.toList
    let fetch : Activity := ⟨me, [.fetch names limit], .done⟩
    let asked := List.replicate members.length (.fetchMetadata names) ++ s.cluster.log
    (∃ round s', s.advance fetch = .moved s' { fetch with todo := [.awaitFetch round] } ∧
      round.calls.map (fun call => (call.address, call.request)) =
        members.map (fun m => (m.address, .fetchMetadata names)) ∧ s'.cluster.log = asked) ∧
    (∀ (t : Schedule) (fuel : Nat), t.client = s → (t.foreground fuel fetch).2.isOver →
      (t.foreground fuel fetch).2.outcome =
        .fetched (members.filterMap (Member.contribution? limit))
          (members.countP fun m => (m.contribution? limit).isNone)) ∧
    (∀ fuel, members.length + 3 ≤ fuel → ((Schedule.idle s).foreground fuel fetch).2.isOver ∧
      ((Schedule.idle s).foreground fuel fetch).1.client.cluster.log = asked) ∧
    ∀ (place : Nat) (m : Member), s.cluster.members[place]? = some m →
      ∃ before after failures, ∀ (change : Member → Member) (t : Schedule) (fuel : Nat),
        t.client = s.withCluster (s.cluster.modifyMember place change) →
          (t.foreground fuel fetch).2.isOver →
            (t.foreground fuel fetch).2.outcome =
              .fetched (before ++ ((change m).contribution? limit).toList ++ after)
                (failures + if ((change m).contribution? limit).isNone then 1 else 0) := by
  intro members fetch asked
  obtain ⟨round, hBegun, hAdvance, hCourse, hAhead⟩ :=
    Client.advance_fetch (s := s) (a := fetch) hSteady rfl rfl rfl
  have hLog : (s.cluster.beginRound s.now names limit).1.log = asked := by
    obtain ⟨sent, hLog, -, hSent⟩ := s.cluster.calls_beginRound s.now limit names
    rw [hLog, (hSent round hBegun).2]
    simp [asked, members]
  have hOutcome (c : Cluster) (hSteady : c.faults.breakDown = false) (t : Schedule) (fuel : Nat)
      (hClient : t.client = s.withCluster c) (hOver : (t.foreground fuel fetch).2.isOver) :
      (t.foreground fuel fetch).2.outcome = c.fetched limit := by
    have hCluster : t.client.cluster = c := congrArg Client.cluster hClient
    have hFetches : Fetches c names limit t.client fetch := .asking rfl
    have hAfter := hFetches.foreground hSteady (congrArg Cluster.members hCluster)
      (congrArg Cluster.faults hCluster) fuel
    exact hAfter.outcome hOver
  refine ⟨⟨round, _, hAdvance, hCourse.requests, hLog⟩, ?_, ?_, ?_⟩
  · intro t fuel hClient hOver
    exact hOutcome s.cluster hSteady t fuel hClient hOver
  · intro fuel hFuel
    have hAlone := Schedule.foreground_idle_of_fetch hSteady (a := fetch) rfl hFuel
    exact ⟨hAlone.1, hAlone.2.trans hLog⟩
  · intro place m hPlace
    obtain ⟨before, after, failures, hChanged⟩ := Cluster.fetched_modifyMember hPlace limit
    refine ⟨before, after, failures, fun change t fuel hClient hOver => ?_⟩
    rw [hOutcome (s.cluster.modifyMember place change) hSteady t fuel hClient hOver, hChanged]

/-- One member answers just in time, one too late, and one refuses to answer. -/
def Client.amongSlowMembers : Client :=
  .create (.ofList []) .default { Cluster.ofSize 0 with
    members := #[⟨Cluster.localAddress 0, ⟨[(3, 7)], [("orders", [(3, 40)])]⟩, some 50, false, false⟩,
      ⟨Cluster.localAddress 1, ⟨[(5, 8)], []⟩, some 51, false, false⟩,
      ⟨Cluster.localAddress 2, ⟨[(6, 9)], []⟩, none, true, false⟩] }

theorem Client.fetch_collects_among_slow_members :
    let run := (Schedule.idle amongSlowMembers).foreground 10 ⟨0, [.fetch ["orders"] (.ofMillis 50)], .done⟩
    run.2.isOver ∧ run.2.outcome = .fetched [⟨[(3, 7)], [("orders", [(3, 40)])]⟩] 2 ∧
      run.1.client.cluster.log = List.replicate 3 (.fetchMetadata ["orders"]) := by
  obtain ⟨-, hOutcome, hOver, -⟩ := amongSlowMembers.fetch_collects ["orders"] (.ofMillis 50) 0 rfl
  obtain ⟨hOver, hLog⟩ := hOver 10 (by decide)
  have hReports : amongSlowMembers.cluster.members.toList.filterMap
      (Member.contribution? (.ofMillis 50)) = [⟨[(3, 7)], [("orders", [(3, 40)])]⟩] := by
    decide +kernel
  have hFailures : (amongSlowMembers.cluster.members.toList.countP fun m =>
      (m.contribution? (.ofMillis 50)).isNone) = 2 := by
    decide +kernel
  refine ⟨hOver, ?_, hLog⟩
  rw [hOutcome (.idle amongSlowMembers) 10 rfl hOver, hReports, hFailures]

end Fetch

end NearCache
