import NearCache.Client.Schedule
import NearCache.Proofs.Client.Plan

/-!
Every action that an activity of a client can carry out is a turn of its plan, as long as no member
breaks down and the cluster answers listener requests.
-/

namespace NearCache

/-- An action that an activity carries out is a turn of its plan. -/
def Progress.IsTurn (s : Client) (p : Plan) (more : List Action) : Progress → Prop
  | .waiting s' action => ∃ p' : Plan, action :: more = p'.actions ∧ Turn s.books p s'.books p'
  | .moved s' todo _ => ∃ p' : Plan, todo ++ more = p'.actions ∧ Turn s.books p s'.books p'
  | .stopped _ _ => False

/-- The client and the activity after an attempt to go on. -/
def Advance.result : Advance → Client × Activity
  | .waiting s a | .moved s a => (s, a)

/-- Nothing comes of an activity that is over. -/
theorem Client.advance_of_isOver {s : Client} {a : Activity} (hOver : a.isOver) :
    (s.advance a).result = (s, a) := by
  rw [advance, List.isEmpty_iff.mp hOver]
  rfl

namespace Cluster

variable {c : Cluster} (name : String) (shape : EventShape) (atHome : Bool)

theorem answer_refused (h : c.faults.refuseListeners = true) :
    ∃ e, c.answer (.addListener name shape atHome) = (c, .error e) := by
  simp only [answer, carryOut, h, if_true, distort]
  exact ⟨_, rfl⟩

theorem answer_granted (h : c.faults.refuseListeners = false)
    (hFair : c.faults.confuseAdd = false) :
    c.answer (.addListener name shape atHome) =
      ((c.carryOut (.addListener name shape atHome)).1,
        .ok (.listenerAdded (registrationText c.nextRegistration))) := by
  simp only [answer, carryOut, h, Bool.false_eq_true, if_false, distort, hFair]

end Cluster

namespace Client

variable (s : Client) (me : ActivityId) (tail : List Chore)

section Setups

variable {me} {cache : Cache}

/-- An activity that gets past the entrance of a setup finds it over or not begun. -/
theorem setup_of_ready (h : (cache.setup = .finished || mayEnter cache me) = true) :
    cache.setup = .finished ∨ cache.setup = .pending := by
  simp only [mayEnter, Bool.or_eq_true, Bool.and_eq_true, decide_eq_true_eq] at h
  exact h.imp_right And.left

variable (id : CacheId)

theorem books_face_none (h : s.caches[id]? = none) : s.books.face id = none := by
  simp [books, h]

theorem settled_of_finished (hFace : s.books.face id = some cache.face)
    (h : cache.setup = .finished) (f : Face) (hf : s.books.face id = some f) :
    f.setup = .finished := by
  rw [hFace] at hf
  cases hf
  exact h

end Setups

section Opening

variable (name : String) (id : CacheId)

theorem isTurn_openCache :
    (s.openCache name).IsTurn s ⟨.opening name, tail⟩ (tail.map Chore.action) := by
  unfold openCache
  by_cases hClosed : s.closed
  · rw [if_pos hClosed]
    exact ⟨⟨.free, tail⟩, rfl, .decline⟩
  rw [if_neg hClosed]
  have hOpen : s.books.closed = false := eq_false_of_ne_true hClosed
  cases s.configs.find? name with
  | none => exact ⟨⟨.free, tail⟩, rfl, .decline⟩
  | some config =>
      cases hEntry : s.directory[name]? with
      | some id => exact ⟨⟨.entering name id, tail⟩, rfl, .find hOpen hEntry⟩
      | none =>
          refine ⟨⟨.entering name s.nextCache, tail⟩, rfl, ?_⟩
          rw [books_addCache s name (.create name config s.coherence) rfl]
          exact .create hOpen hEntry

theorem isTurn_enterSetup (hReady : s.isReady me (.enterSetup id)) :
    (s.enterSetup me id).IsTurn s ⟨.entering name id, tail⟩
      (.handOut name id :: tail.map Chore.action) := by
  unfold enterSetup
  cases hKnown : s.caches[id]? with
  | none =>
      refine ⟨⟨.handing name id, tail⟩, rfl, .pass fun f hf => ?_⟩
      rw [s.books_face_none id hKnown] at hf
      cases hf
  | some cache =>
      have hFace : s.books.face id = some cache.face := by simp [books, hKnown]
      rw [isReady, hKnown, Option.all_some] at hReady
      rcases setup_of_ready hReady with hFinished | hPending
      · simp only [hFinished, if_true]
        exact ⟨⟨.handing name id, tail⟩, rfl, .pass (s.settled_of_finished id hFace hFinished)⟩
      · have hNot : cache.setup ≠ .finished := by rw [hPending]; decide
        have hBooks : (s.modifyCache id (beginSetup me)).books =
            s.books.changeFace id fun f => { f with setup := .running } :=
          s.books_modifyCache id fun _ => rfl
        simp only [hNot, if_false]
        refine ⟨⟨if cache.face.invalidates then .requesting id (.setup name)
          else .finishing name id, tail⟩, ?_, hBooks ▸ .enter hFace hPending⟩
        have hTracked : cache.face.invalidates = cache.config.invalidateOnChange := rfl
        rw [hTracked, setupActions]
        cases cache.config.invalidateOnChange <;> rfl

theorem isTurn_finishSetup :
    (s.act me (.finishSetup id)).IsTurn s ⟨.finishing name id, tail⟩
      (.handOut name id :: tail.map Chore.action) := by
  have hBooks : (s.modifyCache id endSetup).books =
      s.books.changeFace id fun f => { f with setup := .finished } :=
    s.books_modifyCache id fun _ => rfl
  exact ⟨⟨.handing name id, tail⟩, rfl, hBooks ▸ .finish⟩

theorem isTurn_handOut :
    (s.handOut name id).IsTurn s ⟨.handing name id, tail⟩ (tail.map Chore.action) := by
  unfold handOut
  by_cases hClosed : s.closed
  · rw [if_pos hClosed]
    exact ⟨⟨.free, .stopWorker :: .destroy name :: .conclude (.handle none) :: tail⟩, rfl,
      .retract hClosed⟩
  · rw [if_neg hClosed]
    exact ⟨⟨.free, tail⟩, rfl, .handOut (eq_false_of_ne_true hClosed)⟩

end Opening

section Listening

variable (id : CacheId) (errand : Errand)

theorem actions_next : (⟨errand.next id, tail⟩ : Plan).actions =
    errand.rest id ++ tail.map Chore.action := by
  cases errand <;> rfl

theorem actions_settling (limit : Duration) :
    (⟨errand.settling id limit, tail⟩ : Plan).actions =
      (if errand.seeds then [.seed id limit, .startWorker] else [.startWorker]) ++
        (errand.rest id ++ tail.map Chore.action) := by
  cases errand with
  | setup name => rfl
  | renewal seeds => cases seeds <;> rfl

theorem isTurn_subscribe :
    (s.subscribe id (.settle errand.seeds)).IsTurn s ⟨.requesting id errand, tail⟩
      (errand.rest id ++ tail.map Chore.action) := by
  unfold subscribe
  cases hKnown : s.caches[id]? with
  | none =>
      exact ⟨⟨errand.next id, tail⟩, (actions_next tail id errand).symm,
        .requestNone (s.books_face_none id hKnown)⟩
  | some cache =>
      have hFace : (s.books.face id).isSome := by simp [books, hKnown]
      refine ⟨⟨.awaiting id (.negotiate s.cluster.version) _ errand, tail⟩, rfl, ?_⟩
      rw [s.books_withCluster (s.cluster.sameListeners_receive _)]
      exact .request hFace

theorem books_install (subscription : Subscription) :
    (s.install id subscription).books =
      { s.books.changeFace id fun f =>
          { f with subscription := some subscription, pushUnavailable := false } with
        bound := Function.update s.books.bound subscription.registration (some id) } := by
  rw [install, books_bind, s.books_modifyCache id (g := fun f =>
    { f with subscription := some subscription, pushUnavailable := false })]
  · rfl
  · intro c
    cases subscription.shape <;> rfl

variable {cache : Cache} (shape : EventShape)

theorem awaitListener_refused (seed : Bool) (hKnown : s.caches[id]? = some cache)
    (h : s.cluster.faults.refuseListeners = true) :
    s.awaitListener id shape (.settle seed) =
      .moved (s.modifyCache id Cache.markPushUnavailable) (s.settleActions id seed) none := by
  obtain ⟨e, hAnswer⟩ := Cluster.answer_refused cache.name shape true h
  simp only [awaitListener, hKnown, hAnswer, listenerResult]
  rfl

theorem awaitListener_granted (seed : Bool) (hKnown : s.caches[id]? = some cache)
    (h : s.cluster.faults.refuseListeners = false) (hPlain : s.cluster.faults.confuseAdd = false) :
    s.awaitListener id shape (.settle seed) =
      .moved ((s.withCluster (s.cluster.carryOut (.addListener cache.name shape true)).1).install id
          (s.books.granted cache.name shape))
        (match shape with
          | .repairable => s.settleActions id seed
          | .legacy => [])
        none := by
  have hAnswer := Cluster.answer_granted cache.name shape true h hPlain
  simp only [awaitListener, hKnown, hAnswer, listenerResult]
  cases shape <;> rfl

theorem isTurn_awaitListener (due : Nat) (hPlain : s.cluster.faults.confuseAdd = false) :
    (s.awaitListener id shape (.settle errand.seeds)).IsTurn s
      ⟨.awaiting id shape due errand, tail⟩ (errand.rest id ++ tail.map Chore.action) := by
  cases hKnown : s.caches[id]? with
  | none =>
      simp only [awaitListener, hKnown]
      exact ⟨⟨errand.next id, tail⟩, (actions_next tail id errand).symm,
        .awaitNone (s.books_face_none id hKnown)⟩
  | some cache =>
      have hFace : s.books.face id = some cache.face := by simp [books, hKnown]
      cases hRefused : s.cluster.faults.refuseListeners with
      | true =>
          have hBooks : (s.modifyCache id Cache.markPushUnavailable).books =
              s.books.changeFace id fun f => { f with pushUnavailable := true } :=
            s.books_modifyCache id fun _ => rfl
          rw [awaitListener_refused s id shape _ hKnown hRefused]
          refine ⟨⟨errand.settling id s.coherence.memberTimeout, tail⟩,
            (actions_settling tail id errand _).symm, ?_⟩
          rw [hBooks]
          exact .refuse (by simp [hFace]) hRefused
      | false =>
          rw [awaitListener_granted s id shape _ hKnown hRefused hPlain]
          refine ⟨⟨errand.afterGrant id s.coherence.memberTimeout shape, tail⟩, ?_, ?_⟩
          · cases shape with
            | repairable => exact (actions_settling tail id errand _).symm
            | legacy => exact (actions_next tail id errand).symm
          · rw [books_install, s.books_register _ _ _ hRefused]
            exact .grant hFace hRefused

theorem isTurn_seed (limit : Duration) (hSteady : s.cluster.faults.breakDown = false) :
    (s.seed id limit).IsTurn s ⟨.seeding id limit errand, tail⟩
      (.startWorker :: errand.rest id ++ tail.map Chore.action) := by
  unfold seed
  cases hKnown : s.caches[id]? with
  | none => exact ⟨⟨.starting id errand, tail⟩, rfl, .seedNone⟩
  | some cache =>
      obtain ⟨round, hAsked, hSteady⟩ :=
        Cluster.beginRound_steady hSteady s.now [cache.name] limit
      have hBooks := s.books_withCluster
        (s.cluster.sameListeners_beginRound s.now [cache.name] limit)
      simp only [hAsked]
      exact ⟨⟨.collecting id ⟨round, hSteady⟩ errand, tail⟩, rfl, hBooks ▸ .seed⟩

theorem isTurn_awaitSeed (round : { r : Round // r.Steady }) :
    (s.act me (.awaitSeed id round.1)).IsTurn s ⟨.collecting id round errand, tail⟩
      (.startWorker :: errand.rest id ++ tail.map Chore.action) := by
  obtain ⟨round', hPolled, hSteady⟩ := round.2.poll s.cluster s.now
  simp only [act, awaitRound, hPolled]
  by_cases hDone : round'.isDone
  · rw [if_pos hDone]
    have hBooks : (s.modifyCache id (·.seed round'.reports)).books = s.books :=
      s.books_modifyCache_of_same id fun _ => rfl
    exact ⟨⟨.starting id errand, tail⟩, rfl, hBooks ▸ .collected⟩
  · rw [if_neg hDone]
    exact ⟨⟨.collecting id ⟨round', hSteady⟩ errand, tail⟩, rfl, .collect⟩

theorem isTurn_startWorker :
    (s.act me .startWorker).IsTurn s ⟨.starting id errand, tail⟩
      (errand.rest id ++ tail.map Chore.action) := by
  refine ⟨⟨errand.next id, tail⟩, (actions_next tail id errand).symm, ?_⟩
  unfold startWorker
  by_cases hRunning : s.isRunning
  · rw [if_pos hRunning]
    obtain ⟨w, hw, hAlive⟩ := s.isRunning_iff.mp hRunning
    exact .staffed hw hAlive
  · rw [if_neg hRunning]
    dsimp only
    rw [s.books_hire]
    refine .hire fun w hw => ?_
    by_contra hAlive
    exact hRunning (s.isRunning_iff.mpr ⟨w, hw, Option.isSome_iff_ne_none.mpr hAlive⟩)

end Listening

section TearingDown

variable (id : CacheId) (sequel : Sequel)

theorem actions_sequel_next : (⟨sequel.next id, tail⟩ : Plan).actions =
    sequel.rest id ++ tail.map Chore.action := by
  cases sequel <;> rfl

theorem isTurn_sealSetup (hReady : s.isReady me (.sealSetup id)) :
    (s.sealSetup id).IsTurn s ⟨.sealing id, tail⟩
      (.unsubscribe id :: Sequel.release.rest id ++ tail.map Chore.action) := by
  unfold sealSetup
  cases hKnown : s.caches[id]? with
  | none =>
      refine ⟨⟨.detaching id .release, tail⟩, rfl, .sealNone fun f hf => ?_⟩
      rw [s.books_face_none id hKnown] at hf
      cases hf
  | some cache =>
      have hFace : s.books.face id = some cache.face := by simp [books, hKnown]
      rw [isReady, hKnown, Option.all_some] at hReady
      rcases setup_of_ready hReady with hFinished | hPending
      · simp only [hFinished, if_true]
        exact ⟨⟨.detaching id .release, tail⟩, rfl,
          .sealNone (s.settled_of_finished id hFace hFinished)⟩
      · have hNot : cache.setup ≠ .finished := by rw [hPending]; decide
        have hBooks : (s.modifyCache id endSetup).books =
            s.books.changeFace id fun f => { f with setup := .finished } :=
          s.books_modifyCache id fun _ => rfl
        simp only [hNot, if_false]
        exact ⟨⟨.detaching id .release, tail⟩, rfl, hBooks ▸ .sealPending hFace hPending⟩

theorem books_detach (subscription : Subscription) (request : Request) :
    ((s.modifyCache id Cache.dropSubscription).withCluster
      ((s.cluster.unbind subscription.registration).receive request)).books =
      s.books.detach id subscription := by
  have hDrop : (s.modifyCache id Cache.dropSubscription).books =
      s.books.changeFace id fun f => { f with subscription := none } :=
    s.books_modifyCache id fun _ => rfl
  have hUnbind := (s.modifyCache id Cache.dropSubscription).books_unbind subscription.registration
  rw [hDrop] at hUnbind
  exact hUnbind

theorem isTurn_unsubscribe (hKept : s.cluster.faults.loseRemove = false) :
    (s.unsubscribe id).IsTurn s ⟨.detaching id sequel, tail⟩
      (sequel.rest id ++ tail.map Chore.action) := by
  cases hHeld : (s.caches[id]?).bind Cache.subscription with
  | none =>
      simp only [unsubscribe, hHeld]
      refine ⟨⟨sequel.next id, tail⟩, (actions_sequel_next tail id sequel).symm, .detachNone ?_⟩
      intro f hf
      obtain ⟨cache, hKnown, rfl⟩ := Option.map_eq_some_iff.mp hf
      rwa [hKnown] at hHeld
  | some subscription =>
      obtain ⟨cache, hKnown, hSubscription⟩ := Option.bind_eq_some_iff.mp hHeld
      have hFace : s.books.face id = some cache.face := by simp [books, hKnown]
      have hLost : ¬s.cluster.faults.loseRemove = true := by simp [hKept]
      have hBooks := s.books_detach id subscription
        (.removeListener subscription.cacheName subscription.registration)
      have hStep : s.unsubscribe id = .moved
          ((s.modifyCache id Cache.dropSubscription).withCluster
            ((s.cluster.unbind subscription.registration).receive
              (.removeListener subscription.cacheName subscription.registration)))
          [.awaitRemoval (.removeListener subscription.cacheName subscription.registration) false]
          none := by
        simp only [unsubscribe, hHeld]
        exact if_neg hLost
      rw [hStep]
      exact ⟨⟨.removing id subscription.cacheName subscription.registration sequel, tail⟩, rfl,
        hBooks ▸ .detach hFace hSubscription⟩

theorem isTurn_awaitRemoval (name : String) (registration : RegistrationId) :
    (s.awaitRemoval (.removeListener name registration) false).IsTurn s
      ⟨.removing id name registration sequel, tail⟩ (sequel.rest id ++ tail.map Chore.action) := by
  refine ⟨⟨sequel.next id, tail⟩, (actions_sequel_next tail id sequel).symm, ?_⟩
  have hAnswer : (s.cluster.answer (.removeListener name registration)).1 =
      (s.cluster.carryOut (.removeListener name registration)).1 := rfl
  rw [hAnswer, s.books_strike registration name]
  exact .remove

theorem isTurn_release :
    (s.act me (.release id)).IsTurn s ⟨.releasing id, tail⟩
      (.conclude (.flag true) :: tail.map Chore.action) := by
  have hBooks : (s.modifyCache id Cache.destroy).books =
      s.books.changeFace id fun f => { f with pushUnavailable := false } :=
    s.books_modifyCache id fun _ => rfl
  exact ⟨⟨.free, .conclude (.flag true) :: tail⟩, rfl, hBooks ▸ .release⟩

end TearingDown

section Chores

variable (name : String) (id : CacheId)

theorem isTurn_close :
    (s.act me .close).IsTurn s ⟨.closing, tail⟩
      (.stopWorker :: .destroyAll :: .stopWorker :: .conclude .done :: tail.map Chore.action) :=
  ⟨⟨.free, .stopWorker :: .destroyAll :: .stopWorker :: .conclude .done :: tail⟩, rfl, .close⟩

theorem isTurn_resubscribeAll :
    (s.act me .resubscribeAll).IsTurn s ⟨.renewing, tail⟩
      (.conclude .done :: tail.map Chore.action) := by
  refine ⟨⟨.free, s.registered.map Chore.resubscribe ++ .conclude .done :: tail⟩, ?_, .renewAll ?_⟩
  · simp [Plan.actions, Phase.actions, Chore.action, Function.comp_def]
  · exact fun id hm => mem_registered.mp hm

theorem isTurn_destroyAll :
    (s.act me .destroyAll).IsTurn s ⟨.free, .destroyAll :: tail⟩ (tail.map Chore.action) := by
  refine ⟨⟨.free, s.directory.keys.map Chore.destroy ++ tail⟩, ?_, .destroyAll ?_⟩
  · simp [Plan.actions, Phase.actions, Chore.action, Function.comp_def]
  · intro name id hEntry
    have hm : name ∈ s.directory := Std.ExtTreeMap.mem_iff_isSome_getElem?.mpr (by
      rw [show s.directory[name]? = some id from hEntry]; rfl)
    exact Std.ExtTreeMap.mem_keys.mpr hm

theorem isTurn_destroyCache :
    (s.destroyCache name).IsTurn s ⟨.free, .destroy name :: tail⟩ (tail.map Chore.action) := by
  unfold destroyCache
  cases hEntry : s.directory[name]? with
  | none => exact ⟨⟨.free, tail⟩, rfl, .destroyNone hEntry⟩
  | some id =>
      have hBooks : ({ s with directory := s.directory.erase name } : Client).books =
          s.books.takeOut name := by
        simp only [books, Books.takeOut]
        rw [lookup_erase]
      exact ⟨⟨.sealing id, tail⟩, rfl, hBooks ▸ .takeOut hEntry⟩

theorem isTurn_stopWorker :
    s.stopWorker.IsTurn s ⟨.free, .stopWorker :: tail⟩ (tail.map Chore.action) := by
  unfold stopWorker
  cases hRunning : s.running with
  | none => exact ⟨⟨.free, tail⟩, rfl, .stopNone hRunning⟩
  | some w =>
      refine ⟨⟨.free, .awaitWorker w _ :: tail⟩, rfl, ?_⟩
      rw [s.books_dismiss w]
      exact .stop hRunning

/-- However long the worker took, it has stopped once the wait for it is over. -/
theorem awaitWorker_retires (w : WorkerId) :
    ∃ s' outcome, s.awaitWorker w = .moved s' [] outcome ∧ s'.books = s.books.retire w := by
  unfold awaitWorker
  by_cases hFinished : (s.workers[w]?).all Worker.isFinished
  · rw [if_pos hFinished]
    exact ⟨s, _, rfl, (s.books_retire_of_finished w hFinished).symm⟩
  · rw [if_neg hFinished]
    exact ⟨_, _, rfl, s.books_setStage w (fun _ _ => rfl) fun _ => rfl⟩

theorem isTurn_awaitWorker (w : WorkerId) (due : Nat) :
    (s.awaitWorker w).IsTurn s ⟨.free, .awaitWorker w due :: tail⟩ (tail.map Chore.action) := by
  obtain ⟨s', outcome, hStep, hBooks⟩ := s.awaitWorker_retires w
  rw [hStep]
  exact ⟨⟨.free, tail⟩, rfl, hBooks ▸ .reap⟩

theorem isTurn_resubscribe :
    (s.resubscribe id).IsTurn s ⟨.free, .resubscribe id :: tail⟩ (tail.map Chore.action) := by
  unfold resubscribe
  cases hKnown : s.caches[id]? with
  | none =>
      refine ⟨⟨.free, tail⟩, rfl, .renewNone fun f hf => ?_⟩
      rw [s.books_face_none id hKnown] at hf
      cases hf
  | some cache =>
      have hFace : s.books.face id = some cache.face := by simp [books, hKnown]
      cases hTracked : cache.config.invalidateOnChange with
      | true =>
          dsimp only
          rw [if_pos hTracked]
          exact ⟨⟨.detaching id (.renewal !cache.face.isCoherent), tail⟩, rfl,
            .renew hFace hTracked⟩
      | false =>
          dsimp only
          rw [if_neg (by simp [hTracked])]
          refine ⟨⟨.free, tail⟩, rfl, .renewNone fun f hf => ?_⟩
          rw [hFace] at hf
          cases hf
          exact hTracked

end Chores

theorem isTurn_chore (chore : Chore) :
    (s.act me chore.action).IsTurn s ⟨.free, chore :: tail⟩ (tail.map Chore.action) := by
  cases chore with
  | destroy name => exact s.isTurn_destroyCache tail name
  | destroyAll => exact s.isTurn_destroyAll me tail
  | stopWorker => exact s.isTurn_stopWorker tail
  | awaitWorker w due => exact s.isTurn_awaitWorker tail w due
  | resubscribe id => exact s.isTurn_resubscribe tail id
  | conclude outcome => exact ⟨⟨.free, tail⟩, rfl, .conclude⟩

/-- The first action of an activity that can go on is the next turn of its plan. -/
theorem isTurn_of_ready {a : Activity} {p : Plan} (hFair : p.phase.Bears s.cluster.faults)
    (hTodo : a.todo = p.actions) (hNext : a.todo ≠ []) (hReady : s.activityIsReady a) :
    ∃ action more, a.todo = action :: more ∧ s.isReady a.id action ∧
      (s.act a.id action).IsTurn s p more := by
  obtain ⟨phase, tail⟩ := p
  -- The first action of the plan decides; what comes after it is left alone.
  suffices h : ∃ action more, a.todo = action :: more ∧
      (s.isReady a.id action → (s.act a.id action).IsTurn s ⟨phase, tail⟩ more) by
    obtain ⟨action, more, hSplit, hTurn⟩ := h
    have hAction : s.isReady a.id action := by
      rw [activityIsReady, hSplit] at hReady
      exact hReady
    exact ⟨action, more, hSplit, hAction, hTurn hAction⟩
  cases phase with
  | free =>
      cases tail with
      | nil => exact absurd hTodo hNext
      | cons chore tail => exact ⟨_, _, hTodo, fun _ => s.isTurn_chore a.id tail chore⟩
  | opening name => exact ⟨_, _, hTodo, fun _ => s.isTurn_openCache tail name⟩
  | entering name id => exact ⟨_, _, hTodo, fun h => s.isTurn_enterSetup a.id tail name id h⟩
  | requesting id errand => exact ⟨_, _, hTodo, fun _ => s.isTurn_subscribe tail id errand⟩
  | awaiting id shape due errand =>
      exact ⟨_, _, hTodo, fun _ => s.isTurn_awaitListener tail id errand shape due hFair⟩
  | seeding id limit errand =>
      exact ⟨_, _, hTodo, fun _ => s.isTurn_seed tail id errand limit hFair⟩
  | collecting id round errand =>
      exact ⟨_, _, hTodo, fun _ => s.isTurn_awaitSeed a.id tail id errand round⟩
  | starting id errand => exact ⟨_, _, hTodo, fun _ => s.isTurn_startWorker a.id tail id errand⟩
  | finishing name id => exact ⟨_, _, hTodo, fun _ => s.isTurn_finishSetup a.id tail name id⟩
  | handing name id => exact ⟨_, _, hTodo, fun _ => s.isTurn_handOut tail name id⟩
  | sealing id => exact ⟨_, _, hTodo, fun h => s.isTurn_sealSetup a.id tail id h⟩
  | detaching id sequel => exact ⟨_, _, hTodo, fun _ => s.isTurn_unsubscribe tail id sequel hFair⟩
  | removing id name registration sequel =>
      exact ⟨_, _, hTodo, fun _ => s.isTurn_awaitRemoval tail id sequel name registration⟩
  | releasing id => exact ⟨_, _, hTodo, fun _ => s.isTurn_release a.id tail id⟩
  | closing => exact ⟨_, _, hTodo, fun _ => s.isTurn_close a.id tail⟩
  | renewing => exact ⟨_, _, hTodo, fun _ => s.isTurn_resubscribeAll a.id tail⟩

/-- An activity that can go on takes the next turn of its plan. -/
theorem turn_of_ready {a : Activity} {p : Plan} (hFair : p.phase.Bears s.cluster.faults)
    (hTodo : a.todo = p.actions) (hNext : a.todo ≠ []) (hReady : s.activityIsReady a) :
    ∃ p' : Plan, (s.advance a).result.2.todo = p'.actions ∧
      Turn s.books p (s.advance a).result.1.books p' := by
  obtain ⟨action, more, hSplit, hAction, hAct⟩ := s.isTurn_of_ready hFair hTodo hNext hReady
  rw [advance, hSplit]
  simp only [perform, hAction, if_true]
  cases hProgress : s.act a.id action with
  | waiting s' action' => rwa [hProgress] at hAct
  | moved s' todo outcome => rwa [hProgress] at hAct
  | stopped s' fault =>
      rw [hProgress] at hAct
      exact hAct.elim

/-- An activity that has to wait does no more than line up. -/
theorem advance_of_waiting {a : Activity} {action : Action} {more : List Action}
    (hSplit : a.todo = action :: more) (hWait : ¬s.isReady a.id action) :
    (s.advance a).result = (s.lineUp a.id action, a) := by
  simp only [advance, hSplit, perform, hWait, Bool.false_eq_true, if_false, Advance.result]
  rw [← hSplit]

theorem books_lineUp (action : Action) : (s.lineUp me action).books = s.books := by
  have hQueue : ∀ id, (s.modifyCache id (enqueue · me)).books = s.books := by
    refine fun id => s.books_modifyCache_of_same id fun c => ?_
    unfold enqueue
    split <;> rfl
  cases action with
  | enterSetup id => exact hQueue id
  | sealSetup id => exact hQueue id
  | _ => rfl

/-- An activity that has to wait changes nothing in the books. -/
theorem books_of_waiting {a : Activity} (hWait : ¬s.activityIsReady a) :
    (s.advance a).result.2.todo = a.todo ∧ (s.advance a).result.1.books = s.books := by
  cases hSplit : a.todo with
  | nil => simp [activityIsReady, hSplit] at hWait
  | cons action more =>
      have hAction : ¬s.isReady a.id action := by
        rw [activityIsReady, hSplit] at hWait
        exact hWait
      rw [s.advance_of_waiting hSplit hAction]
      exact ⟨hSplit, s.books_lineUp a.id action⟩

end Client

end NearCache
