import NearCache.Proofs.Client.Listeners
import NearCache.Proofs.Client.Turn

/-!
Visits of callers that ask for caches. Whatever the cluster makes of their requests, each of them is
at a stage of its visit: it looks for the cache, waits at the entrance of its setup, sets it up step
by step, or hands it out. A fault may stop a setup, which is then left to the next caller.
-/

namespace NearCache

/-- How far the setup of a cache has come. -/
inductive SetupStep
  | requesting
  | awaiting (shape : EventShape) (due : Nat)
  | seeding (limit : Duration)
  | collecting (round : Round)
  | starting
  | finishing

def SetupStep.actions (id : CacheId) : SetupStep → List Action
  | .requesting => [.subscribe id (.settle true)]
  | .awaiting shape due => [.awaitListener id shape due (.settle true)]
  | .seeding limit => [.seed id limit, .startWorker]
  | .collecting round => [.awaitSeed id round, .startWorker]
  | .starting => [.startWorker]
  | .finishing => []

/-- The step after the cluster has registered a listener. -/
def SetupStep.afterGrant (limit : Duration) : EventShape → SetupStep
  | .repairable => .seeding limit
  | .legacy => .finishing

/-- Where a caller that asks for a cache is. -/
inductive Stage
  | asking
  | entering (id : CacheId)
  | building (id : CacheId) (step : SetupStep)
  | handing (id : CacheId)
  | served (id : CacheId)
  | declined
  | aborted (fault : Fault)

namespace Stage

def actions (name : String) : Stage → List Action
  | .asking => [.findOrCreate name]
  | .entering id => [.enterSetup id, .handOut name id]
  | .building id step => step.actions id ++ [.finishSetup id, .handOut name id]
  | .handing id => [.handOut name id]
  | .served _ | .declined | .aborted _ => []

/-- What has come of a visit that is over. -/
def outcome? : Stage → Option Outcome
  | .served id => some (.handle (some id))
  | .declined => some (.handle none)
  | .aborted fault => some (.faulted fault)
  | _ => none

/-- The cache that a caller has before it. -/
def cache? : Stage → Option CacheId
  | .entering id | .building id _ | .handing id | .served id => some id
  | .asking | .declined | .aborted _ => none

/-- The cache that a caller sets up. -/
def builds : Stage → Option CacheId
  | .building id _ => some id
  | _ => none

end Stage

/-- A caller that asks for the cache of a name. -/
structure Visit where
  name : String
  stage : Stage

/-- The activity of a caller fits its visit. -/
structure Activity.Follows (a : Activity) (v : Visit) : Prop where
  todo : a.todo = v.stage.actions v.name
  outcome : ∀ outcome, v.stage.outcome? = some outcome → a.outcome = outcome

/-- The cluster registers a listener of a name, and nobody binds it. -/
def Books.enroll (b : Books) (name : String) : Books :=
  { b with
    registered := Function.update b.registered (Cluster.registrationText b.nextRegistration)
      (some name)
    nextRegistration := b.nextRegistration + 1 }

/-- One step of a visit: the requests that the cluster receives in it, and the books and the stage
after it. -/
inductive Move (s : Client) (name : String) : Stage → List Request → Books → Stage → Prop
  | wait {stage} : Move s name stage [] s.books stage
  -- The cache is found or created, and entered by the first caller that gets there.
  | decline (hNone : s.configs.find? name = none) : Move s name .asking [] s.books .declined
  | find {id} (hEntry : s.books.entry name = some id) :
      Move s name .asking [] s.books (.entering id)
  | create {config} (hConfig : s.configs.find? name = some config)
      (hEntry : s.books.entry name = none) :
      Move s name .asking [] (s.books.add (.fresh name config.invalidateOnChange))
        (.entering s.books.nextCache)
  | pass {id} (hFinished : s.books.stage id = some .finished) :
      Move s name (.entering id) [] s.books (.handing id)
  | enter {id f} (hFace : s.books.face id = some f) (hPending : f.setup = .pending) :
      Move s name (.entering id) [] (s.books.changeFace id fun f => { f with setup := .running })
        (.building id (if f.invalidates then .requesting else .finishing))
  -- A listener is asked for.
  | request {id shape due} :
      Move s name (.building id .requesting) [.addListener name shape true] s.books
        (.building id (.awaiting shape due))
  | grant {id shape due f limit} (hFace : s.books.face id = some f)
      (hGranted : s.books.faults.refuseListeners = false) :
      Move s name (.building id (.awaiting shape due)) [] (s.books.install id f shape)
        (.building id (.afterGrant limit shape))
  | refuse {id shape due limit} :
      Move s name (.building id (.awaiting shape due)) []
        (s.books.changeFace id fun f => { f with pushUnavailable := true })
        (.building id (.seeding limit))
  | confuse {id shape due limit} (hConfused : s.books.faults.confuseAdd = true) :
      Move s name (.building id (.awaiting shape due)) []
        ((s.books.enroll name).changeFace id fun f => { f with pushUnavailable := true })
        (.building id (.seeding limit))
  -- The members are asked for their reports, and the worker is started.
  | seed {id limit} {round : Round}
      (hPlaces : round.calls.map Call.place = List.range s.cluster.members.size) :
      Move s name (.building id (.seeding limit))
        (List.replicate s.cluster.members.size (.fetchMetadata [name])) s.books
        (.building id (.collecting round))
  | collect {id round round'} :
      Move s name (.building id (.collecting round)) [] s.books (.building id (.collecting round'))
  | collected {id round} :
      Move s name (.building id (.collecting round)) [] s.books (.building id .starting)
  | staffed {id} : Move s name (.building id .starting) [] s.books (.building id .finishing)
  | hire {id} : Move s name (.building id .starting) [] s.books.hire (.building id .finishing)
  -- The setup is over, or a fault has stopped it.
  | finish {id} :
      Move s name (.building id .finishing) []
        (s.books.changeFace id fun f => { f with setup := .finished }) (.handing id)
  | abort {id step sent fault} (hSent : ∀ request ∈ sent, request = .fetchMetadata [name]) :
      Move s name (.building id step) sent
        (s.books.changeFace id fun f => { f with setup := .pending }) (.aborted fault)
  | handOut {id} : Move s name (.handing id) [] s.books (.served id)

/-- A client makes a step of a visit. Its cluster notes the requests, the newest first. -/
structure Proceeds (s : Client) (name : String) (stage : Stage) (sent : List Request) (s' : Client)
    (stage' : Stage) : Prop where
  move : Move s name stage sent s'.books stage'
  log : s'.cluster.log = sent.reverse ++ s.cluster.log
  configs : s'.configs = s.configs

/-- An action that an activity carries out is a step of a visit, unless a fault stops it. -/
def Progress.IsMove (s : Client) (name : String) (stage : Stage) (rest : List Action) :
    Progress → Prop
  | .waiting s' action => ∃ (sent : List Request) (stage' : Stage),
      Proceeds s name stage sent s' stage' ∧ action :: rest = stage'.actions name ∧
      stage'.outcome? = none
  | .moved s' todo outcome => ∃ (sent : List Request) (stage' : Stage),
      Proceeds s name stage sent s' stage' ∧ todo ++ rest = stage'.actions name ∧
      ∀ o, stage'.outcome? = some o → outcome = some o
  | .stopped s' _ => s'.books = s.books ∧ s'.configs = s.configs ∧ stage.builds ≠ none ∧
      ∃ sent : List Request, s'.cluster.log = sent.reverse ++ s.cluster.log ∧
        ∀ request ∈ sent, request = .fetchMetadata [name]

/-- An activity that goes on with its visit. -/
theorem Progress.IsMove.of_moved {s s' : Client} {name : String} {stage : Stage}
    {todo rest : List Action} {outcome : Option Outcome} (sent : List Request) (stage' : Stage)
    (h : Proceeds s name stage sent s' stage') (hTodo : todo ++ rest = stage'.actions name)
    (hNone : stage'.outcome? = none) :
    (Progress.moved s' todo outcome).IsMove s name stage rest :=
  ⟨sent, stage', h, hTodo, fun _ hSome => by cases hNone.symm.trans hSome⟩

section Actions

variable (s : Client) (me : ActivityId) (name : String) (id : CacheId) {cache : Cache}

theorem Client.isMove_openCache (hOpen : s.closed = false) :
    (s.openCache name).IsMove s name .asking [] := by
  unfold openCache
  rw [if_neg (by simp [hOpen])]
  cases hConfig : s.configs.find? name with
  | none =>
      exact ⟨[], .declined, ⟨.decline hConfig, rfl, rfl⟩, rfl, fun o h => by cases h; rfl⟩
  | some config =>
      cases hEntry : s.directory[name]? with
      | some id => exact .of_moved [] (.entering id) ⟨.find hEntry, rfl, rfl⟩ rfl rfl
      | none =>
          refine .of_moved [] (.entering s.nextCache) ⟨?_, rfl, rfl⟩ rfl rfl
          rw [books_addCache s name (.create name config s.coherence) rfl]
          exact .create hConfig hEntry

theorem Client.isMove_enterSetup (hReady : s.isReady me (.enterSetup id))
    (hKnown : s.caches[id]? = some cache) :
    (s.enterSetup me id).IsMove s name (.entering id) [.handOut name id] := by
  have hFace : s.books.face id = some cache.face := by simp [books, hKnown]
  rw [isReady, hKnown, Option.all_some] at hReady
  simp only [enterSetup, hKnown]
  rcases setup_of_ready hReady with hFinished | hPending
  · rw [if_pos hFinished]
    refine .of_moved [] (.handing id) ⟨.pass ?_, rfl, rfl⟩ rfl rfl
    rw [Books.stage, hFace, Option.map_some]
    exact congrArg some hFinished
  · have hBooks : (s.modifyCache id (beginSetup me)).books =
        s.books.changeFace id fun f => { f with setup := .running } :=
      s.books_modifyCache id fun _ => rfl
    rw [if_neg (by rw [hPending]; decide)]
    refine .of_moved []
      (.building id (if cache.face.invalidates then .requesting else .finishing))
      ⟨hBooks ▸ .enter hFace hPending, rfl, rfl⟩ ?_ rfl
    have hTracked : cache.face.invalidates = cache.config.invalidateOnChange := rfl
    rw [hTracked, setupActions]
    cases cache.config.invalidateOnChange <;> rfl

theorem Client.isMove_finishSetup :
    (s.act me (.finishSetup id)).IsMove s name (.building id .finishing) [.handOut name id] := by
  have hBooks : (s.modifyCache id endSetup).books =
      s.books.changeFace id fun f => { f with setup := .finished } :=
    s.books_modifyCache id fun _ => rfl
  exact .of_moved [] (.handing id) ⟨hBooks ▸ .finish, rfl, rfl⟩ rfl rfl

theorem Client.isMove_handOut (hOpen : s.closed = false) :
    (s.handOut name id).IsMove s name (.handing id) [] := by
  unfold handOut
  rw [if_neg (by simp [hOpen])]
  exact ⟨[], .served id, ⟨.handOut, rfl, rfl⟩, rfl, fun o h => by cases h; rfl⟩

theorem Client.isMove_subscribe (hKnown : s.caches[id]? = some cache) :
    (s.subscribe id (.settle true)).IsMove s cache.name (.building id .requesting)
      [.finishSetup id, .handOut cache.name id] := by
  simp only [subscribe, hKnown]
  refine .of_moved [.addListener cache.name (.negotiate s.cluster.version) true]
    (.building id (.awaiting (.negotiate s.cluster.version) _)) ⟨?_, rfl, rfl⟩ rfl rfl
  rw [s.books_withCluster (s.cluster.sameListeners_receive _)]
  exact .request

theorem Cluster.log_carryOut (c : Cluster) (request : Request) :
    (c.carryOut request).1.log = c.log := by
  cases request with
  | addListener cacheName shape atHome =>
      simp only [carryOut]
      split <;> rfl
  | removeListener cacheName registration => rfl
  | fetchMetadata names => rfl

theorem Cluster.answer_confused {c : Cluster} (shape : EventShape)
    (h : c.faults.refuseListeners = false) (hConfused : c.faults.confuseAdd = true) :
    c.answer (.addListener name shape true) =
      ((c.carryOut (.addListener name shape true)).1, .ok (.listenerRemoved true)) := by
  simp only [answer, carryOut, h, Bool.false_eq_true, if_false, distort, hConfused, if_true]

theorem Client.isMove_awaitListener (shape : EventShape) (due : Nat)
    (hKnown : s.caches[id]? = some cache) :
    (s.awaitListener id shape (.settle true)).IsMove s cache.name
      (.building id (.awaiting shape due)) [.finishSetup id, .handOut cache.name id] := by
  have hFace : s.books.face id = some cache.face := by simp [books, hKnown]
  have hMark : ∀ t : Client, (t.modifyCache id Cache.markPushUnavailable).books =
      t.books.changeFace id fun f => { f with pushUnavailable := true } :=
    fun t => t.books_modifyCache id fun _ => rfl
  cases hRefused : s.cluster.faults.refuseListeners with
  | true =>
      rw [awaitListener_refused s id shape _ hKnown hRefused]
      refine .of_moved [] (.building id (.seeding s.coherence.memberTimeout)) ⟨?_, rfl, rfl⟩ rfl rfl
      rw [hMark]
      exact .refuse
  | false =>
      have hLog := s.cluster.log_carryOut (.addListener cache.name shape true)
      have hRegistered := s.books_register cache.name shape true hRefused
      cases hConfused : s.cluster.faults.confuseAdd with
      | true =>
          simp only [awaitListener, hKnown, Cluster.answer_confused _ shape hRefused hConfused,
            listenerResult]
          refine .of_moved [] (.building id (.seeding s.coherence.memberTimeout)) ⟨?_, hLog, rfl⟩
            rfl rfl
          rw [hMark, hRegistered]
          exact .confuse hConfused
      | false =>
          rw [awaitListener_granted s id shape _ hKnown hRefused hConfused]
          refine .of_moved [] (.building id (.afterGrant s.coherence.memberTimeout shape))
            ⟨?_, hLog, rfl⟩ ?_ rfl
          · rw [books_install, hRegistered]
            exact .grant hFace hRefused
          · cases shape <;> rfl

theorem Client.isMove_seed (limit : Duration) (hKnown : s.caches[id]? = some cache) :
    (s.seed id limit).IsMove s cache.name (.building id (.seeding limit))
      [.startWorker, .finishSetup id, .handOut cache.name id] := by
  have hBooks := s.books_withCluster
    (s.cluster.sameListeners_beginRound s.now [cache.name] limit)
  obtain ⟨sent, hLog, hSent, hCalls⟩ := s.cluster.calls_beginRound s.now limit [cache.name]
  simp only [seed, hKnown]
  cases hAsked : (s.cluster.beginRound s.now [cache.name] limit).2 with
  | error fault =>
      refine ⟨hBooks, rfl, Option.some_ne_none id, sent.reverse, ?_,
        fun r hm => hSent r (List.mem_reverse.mp hm)⟩
      rw [List.reverse_reverse]
      exact hLog
  | ok round =>
      obtain ⟨hPlaces, rfl⟩ := hCalls round hAsked
      refine .of_moved (List.replicate s.cluster.members.size (.fetchMetadata [cache.name]))
        (.building id (.collecting round)) ⟨?_, ?_, rfl⟩ rfl rfl
      · rw [hBooks]
        exact .seed hPlaces
      · rw [List.reverse_replicate]
        exact hLog

theorem Client.isMove_awaitSeed (round : Round) :
    (s.act me (.awaitSeed id round)).IsMove s name (.building id (.collecting round))
      [.startWorker, .finishSetup id, .handOut name id] := by
  simp only [act, awaitRound]
  cases round.poll s.cluster s.now with
  | error fault => exact ⟨rfl, rfl, Option.some_ne_none id, [], rfl, List.forall_mem_nil _⟩
  | ok round' =>
      by_cases hDone : round'.isDone
      · have hBooks : (s.modifyCache id (·.seed round'.reports)).books = s.books :=
          s.books_modifyCache_of_same id fun _ => rfl
        simp only [hDone, if_true]
        exact .of_moved [] (.building id .starting) ⟨hBooks ▸ .collected, rfl, rfl⟩ rfl rfl
      · simp only [hDone]
        exact ⟨[], .building id (.collecting round'), ⟨.collect, rfl, rfl⟩, rfl, rfl⟩

theorem Client.isMove_startWorker :
    (s.act me .startWorker).IsMove s name (.building id .starting)
      [.finishSetup id, .handOut name id] := by
  simp only [act, startWorker]
  by_cases hRunning : s.isRunning
  · rw [if_pos hRunning]
    exact .of_moved [] (.building id .finishing) ⟨.staffed, rfl, rfl⟩ rfl rfl
  · rw [if_neg hRunning]
    refine .of_moved [] (.building id .finishing) ⟨?_, rfl, rfl⟩ rfl rfl
    dsimp only
    rw [s.books_hire]
    exact .hire

end Actions

section Visits

variable {s : Client} {a : Activity} {v : Visit}

/-- The first action of a visit is its next step, unless a fault stops it. -/
theorem Client.isMove_of_follows (hFollows : a.Follows v) (hOpen : s.closed = false)
    (hKnown : ∀ id, v.stage.cache? = some id → s.books.title id = some v.name)
    (hNext : v.stage.outcome? = none) :
    ∃ action rest, a.todo = action :: rest ∧ (s.isReady a.id action →
      (s.act a.id action).IsMove s v.name v.stage rest) := by
  obtain ⟨name, stage⟩ := v
  have hTodo := hFollows.todo
  have hCache : ∀ id, stage.cache? = some id →
      ∃ cache, s.caches[id]? = some cache ∧ cache.name = name := by
    intro id hId
    have hTitle := hKnown id hId
    simp only [Books.title, books, Option.map_map, Option.map_eq_some_iff] at hTitle
    exact hTitle
  cases stage with
  | asking => exact ⟨_, _, hTodo, fun _ => s.isMove_openCache name hOpen⟩
  | entering id =>
      obtain ⟨cache, hFound, -⟩ := hCache id rfl
      exact ⟨_, _, hTodo, fun hReady => s.isMove_enterSetup a.id name id hReady hFound⟩
  | building id step =>
      obtain ⟨cache, hFound, rfl⟩ := hCache id rfl
      cases step with
      | requesting => exact ⟨_, _, hTodo, fun _ => s.isMove_subscribe id hFound⟩
      | awaiting shape due =>
          exact ⟨_, _, hTodo, fun _ => s.isMove_awaitListener id shape due hFound⟩
      | seeding limit => exact ⟨_, _, hTodo, fun _ => s.isMove_seed id limit hFound⟩
      | collecting round =>
          exact ⟨_, _, hTodo, fun _ => s.isMove_awaitSeed a.id cache.name id round⟩
      | starting => exact ⟨_, _, hTodo, fun _ => s.isMove_startWorker a.id cache.name id⟩
      | finishing => exact ⟨_, _, hTodo, fun _ => s.isMove_finishSetup a.id cache.name id⟩
  | handing id => exact ⟨_, _, hTodo, fun _ => s.isMove_handOut name id hOpen⟩
  | served id => cases hNext
  | declined => cases hNext
  | aborted fault => cases hNext

/-- Of a setup that a fault has stopped nothing is left but that the next caller may try. -/
theorem Client.unwind_building (id : CacheId) (step : SetupStep) (name : String) :
    s.unwind ((Stage.building id step).actions name) = s.modifyCache id abandonSetup := by
  cases step <;> rfl

/-- A caller that asks for a cache makes the next step of its visit, or waits. -/
theorem Client.proceeds_of_follows (hFollows : a.Follows v) (hOpen : s.closed = false)
    (hKnown : ∀ id, v.stage.cache? = some id → s.books.title id = some v.name) :
    ∃ sent stage', Proceeds s v.name v.stage sent (s.advance a).result.1 stage' ∧
      (s.advance a).result.2.Follows ⟨v.name, stage'⟩ := by
  cases hOutcome : v.stage.outcome? with
  | some outcome =>
      have hOver : a.isOver := by
        rw [Activity.isOver, hFollows.todo, List.isEmpty_iff]
        cases hStage : v.stage <;> first | rfl | simp [hStage, Stage.outcome?] at hOutcome
      rw [advance_of_isOver hOver]
      exact ⟨[], v.stage, ⟨.wait, rfl, rfl⟩, hFollows⟩
  | none =>
      obtain ⟨action, rest, hTodo, hMove⟩ := isMove_of_follows hFollows hOpen hKnown hOutcome
      by_cases hReady : s.isReady a.id action
      · have hMove := hMove hReady
        simp only [advance, hTodo, perform, hReady, if_true]
        cases hProgress : s.act a.id action with
        | waiting s' action' =>
            rw [hProgress] at hMove
            obtain ⟨sent, stage', hProceeds, hActions, hNone⟩ := hMove
            refine ⟨sent, stage', hProceeds, hActions, fun outcome h => ?_⟩
            cases hNone.symm.trans h
        | moved s' todo outcome =>
            rw [hProgress] at hMove
            obtain ⟨sent, stage', hProceeds, hActions, hSettled⟩ := hMove
            refine ⟨sent, stage', hProceeds, hActions, fun outcome' h => ?_⟩
            simp only [Advance.result, hSettled outcome' h, Option.getD_some]
        | stopped s' fault =>
            rw [hProgress] at hMove
            obtain ⟨hBooks, hConfigs, hBuilds, sent, hLog, hSent⟩ := hMove
            obtain ⟨name, stage⟩ := v
            cases stage with
            | building id step =>
                have hUnwound : s'.unwind (action :: rest) = s'.modifyCache id abandonSetup := by
                  rw [← hTodo, hFollows.todo, unwind_building]
                have hAbandoned : (s'.modifyCache id abandonSetup).books =
                    s'.books.changeFace id fun f => { f with setup := .pending } :=
                  s'.books_modifyCache id fun _ => rfl
                simp only [Advance.result, hUnwound]
                refine ⟨sent, .aborted fault, ⟨?_, hLog, hConfigs⟩, rfl, fun _ h => ?_⟩
                · rw [hAbandoned, hBooks]
                  exact .abort hSent
                · cases h
                  rfl
            | _ => exact absurd rfl hBuilds
      · have hLog : (s.lineUp a.id action).cluster.log = s.cluster.log := by cases action <;> rfl
        have hConfigs : (s.lineUp a.id action).configs = s.configs := by cases action <;> rfl
        rw [s.advance_of_waiting hTodo hReady]
        refine ⟨[], v.stage, ⟨?_, hLog, hConfigs⟩, hFollows⟩
        rw [s.books_lineUp]
        exact .wait

end Visits

end NearCache
