import NearCache.Proofs.Client.Background
import NearCache.Proofs.Client.Traffic
import NearCache.Proofs.Client.Visits

/-!
Traffic of callers that ask for caches, and nothing else. Wherever their visits are, the directory
and the setups of its caches agree with them, and no two callers set up one cache, however the steps
of callers, workers, events and changes of the cluster interleave.
-/

namespace NearCache

namespace Books

/-- The directory and what its caches are called stay, and so does whether they want events. -/
structure Keeps (b b' : Books) : Prop where
  closed : b'.closed = b.closed
  entry : b'.entry = b.entry
  next : b'.nextCache = b.nextCache
  title : ∀ id, b'.title id = b.title id
  tracks : ∀ id, b'.tracks id = b.tracks id

variable (b : Books)

theorem Keeps.refl : b.Keeps b :=
  ⟨rfl, rfl, rfl, fun _ => rfl, fun _ => rfl⟩

theorem keeps_changeFace (id : CacheId) {change : Face → Face}
    (hName : ∀ f, (change f).name = f.name)
    (hTracked : ∀ f, (change f).invalidates = f.invalidates) : b.Keeps (b.changeFace id change) :=
  ⟨rfl, rfl, rfl, fun other => b.title_changeFace id other hName,
    fun other => b.tracks_changeFace_of_same id other hTracked⟩

theorem keeps_changeSetup (id : CacheId) (setup : Setup) :
    b.Keeps (b.changeFace id fun f => { f with setup := setup }) :=
  b.keeps_changeFace id (fun _ => rfl) fun _ => rfl

end Books

/-- Where a caller may be, given the books. -/
def Visit.Fits (v : Visit) (configs : ConfigCatalog) (b : Books) : Prop :=
  match v.stage with
  | .asking | .aborted _ => True
  | .declined => configs.find? v.name = none
  | .entering id => b.entry v.name = some id
  | .building id _ => b.entry v.name = some id ∧ b.stage id = some .running
  | .handing id | .served id => b.entry v.name = some id ∧ b.stage id = some .finished

/-- What a step of a visit does to the directory and to the setups of caches. -/
inductive Touch (configs : ConfigCatalog) (b : Books) (v : Visit) (b' : Books) (v' : Visit) : Prop
  | pass (hKeeps : b.Keeps b') (hStage : ∀ id, b'.stage id = b.stage id) (hFits : v'.Fits configs b)
      (hBuilds : v'.stage.builds = v.stage.builds)
  | create (config : CacheConfig) (hConfig : configs.find? v.name = some config)
      (hEntry : b.entry v.name = none)
      (hBooks : b' = b.add (.fresh v.name config.invalidateOnChange))
      (hFits : v'.Fits configs b') (hBuilds : v'.stage.builds = none)
  | enter (id : CacheId) (hPending : b.stage id = some .pending) (hKeeps : b.Keeps b')
      (hStage : ∀ other, b'.stage other = if other = id then some .running else b.stage other)
      (hFits : v'.Fits configs b') (hBuilds : v'.stage.builds = some id)
  | leave (id : CacheId) (setup : Setup) (hBuilt : v.stage.builds = some id) (hKeeps : b.Keeps b')
      (hStage : ∀ other, b'.stage other = if other = id then some setup else b.stage other)
      (hFits : v'.Fits configs b') (hBuilds : v'.stage.builds = none)

theorem Move.touch {s : Client} {name : String} {stage stage' : Stage} {sent : List Request}
    {b' : Books} (h : Move s name stage sent b' stage')
    (hFits : Visit.Fits ⟨name, stage⟩ s.configs s.books) :
    Touch s.configs s.books ⟨name, stage⟩ b' ⟨name, stage'⟩ := by
  have hSame {stage' : Stage} (hFits' : Visit.Fits ⟨name, stage'⟩ s.configs s.books)
      (hBuilds : stage'.builds = stage.builds) :
      Touch s.configs s.books ⟨name, stage⟩ s.books ⟨name, stage'⟩ :=
    .pass (.refl _) (fun _ => rfl) hFits' hBuilds
  cases h with
  | wait | request | seed | collect | collected | staffed | handOut => exact hSame hFits rfl
  | decline hNone => exact hSame hNone rfl
  | find hEntry => exact hSame hEntry rfl
  | pass hFinished => exact hSame ⟨hFits, hFinished⟩ rfl
  | create hConfig hEntry =>
      exact .create _ hConfig hEntry rfl (Function.update_self ..) rfl
  | @enter id f hFace hPending =>
      have hBefore : s.books.stage id = some .pending := by
        rw [Books.stage, hFace, Option.map_some, hPending]
      have hStage := s.books.stage_changeSetup id .running (by simp [hBefore])
      exact .enter id hBefore (s.books.keeps_changeSetup id _) hStage
        ⟨hFits, (hStage id).trans (if_pos rfl)⟩ rfl
  | @grant id shape due f =>
      have hKeeps : s.books.Keeps (s.books.changeFace id fun face => { face with
          subscription := some (s.books.granted f.name shape)
          pushUnavailable := false }) :=
        s.books.keeps_changeFace id (fun _ => rfl) fun _ => rfl
      exact .pass { hKeeps with } (fun _ => s.books.stage_changeFace_of_same id _ fun _ => rfl)
        hFits rfl
  | @refuse id =>
      exact .pass (s.books.keeps_changeFace id (fun _ => rfl) fun _ => rfl)
        (fun _ => s.books.stage_changeFace_of_same id _ fun _ => rfl) hFits rfl
  | @confuse id =>
      have hKeeps : (s.books.enroll name).Keeps ((s.books.enroll name).changeFace id fun f =>
          { f with pushUnavailable := true }) :=
        (s.books.enroll name).keeps_changeFace id (fun _ => rfl) fun _ => rfl
      exact .pass { hKeeps with } (fun _ => s.books.stage_changeFace_of_same id _ fun _ => rfl)
        hFits rfl
  | hire => exact .pass ⟨rfl, rfl, rfl, fun _ => rfl, fun _ => rfl⟩ (fun _ => rfl) hFits rfl
  | @finish id =>
      have hStage := s.books.stage_changeSetup id .finished (by simp [hFits.2])
      exact .leave id .finished rfl (s.books.keeps_changeSetup id _) hStage
        ⟨hFits.1, (hStage id).trans (if_pos rfl)⟩ rfl
  | @abort id =>
      have hStage := s.books.stage_changeSetup id .pending (by simp [hFits.2])
      exact .leave id .pending rfl (s.books.keeps_changeSetup id _) hStage trivial rfl

section Locality

variable {s : Client} {name : String} {stage stage' : Stage} {sent : List Request} {b' : Books}

theorem Move.stage_of_aborted {fault : Fault} (h : Move s name (.aborted fault) sent b' stage) :
    stage = .aborted fault := by
  cases h
  rfl

/-- A visit changes nothing about other names. -/
theorem Move.entry_of_ne (h : Move s name stage sent b' stage') {other : String}
    (hOther : other ≠ name) : b'.entry other = s.books.entry other := by
  cases h with
  | create => exact Function.update_of_ne hOther _ _
  | _ => rfl

/-- A visit changes no cache but the one it has before it, or creates. -/
theorem Move.face_of_ne (h : Move s name stage sent b' stage') {id : CacheId}
    (hOther : stage.cache? ≠ some id) (hOld : id ≠ s.books.nextCache) :
    b'.face id = s.books.face id := by
  have hNe : ∀ {other : CacheId}, some other ≠ some id → id ≠ other :=
    fun hOther hSame => hOther (congrArg some hSame.symm)
  cases h with
  | create => exact Function.update_of_ne hOld _ _
  | enter => exact Function.update_of_ne (hNe hOther) _ _
  | grant => exact Function.update_of_ne (hNe hOther) _ _
  | refuse => exact Function.update_of_ne (hNe hOther) _ _
  | confuse => exact Function.update_of_ne (hNe hOther) _ _
  | finish => exact Function.update_of_ne (hNe hOther) _ _
  | abort => exact Function.update_of_ne (hNe hOther) _ _
  | _ => rfl

end Locality

/-- Callers that ask for caches are where the books have them, and no two set up one cache. -/
structure Sound (configs : ConfigCatalog) (b : Books) (visits : Nat → Visit) : Prop where
  opened : b.closed = false
  filed : Filed b
  tracks : ∀ name id config, b.entry name = some id → configs.find? name = some config →
    b.tracks id = config.invalidateOnChange
  fits : ∀ i, (visits i).Fits configs b
  alone : ∀ i j id, (visits i).stage.builds = some id → (visits j).stage.builds = some id → i = j

section Soundness

variable {configs : ConfigCatalog} {b b' : Books} {visits visits' : Nat → Visit} {i : Nat}
  {v : Visit} {id : CacheId}

theorem Visit.Fits.entry (h : v.Fits configs b) (hCache : v.stage.cache? = some id) :
    b.entry v.name = some id := by
  obtain ⟨name, stage⟩ := v
  cases stage <;> cases hCache
  case entering => exact h
  case building => exact h.1
  case handing => exact h.1
  case served => exact h.1

theorem Visit.Fits.running (h : v.Fits configs b) (hBuilds : v.stage.builds = some id) :
    b.stage id = some .running := by
  obtain ⟨name, stage⟩ := v
  cases stage <;> cases hBuilds
  exact h.2

/-- A caller is where it was if the directory still has its cache, and the setup of that cache is as
it was or is of no matter to the caller. -/
theorem Visit.Fits.keep (h : v.Fits configs b)
    (hEntry : ∀ id, b.entry v.name = some id → b'.entry v.name = some id)
    (hStage : ∀ id, b.entry v.name = some id →
      b.stage id = some .finished ∨ v.stage.builds = some id → b'.stage id = b.stage id) :
    v.Fits configs b' := by
  obtain ⟨name, stage⟩ := v
  cases stage with
  | asking => trivial
  | aborted fault => trivial
  | declined => exact h
  | entering id => exact hEntry id h
  | building id step => exact ⟨hEntry id h.1, (hStage id h.1 (.inr rfl)).trans h.2⟩
  | handing id => exact ⟨hEntry id h.1, (hStage id h.1 (.inl h.2)).trans h.2⟩
  | served id => exact ⟨hEntry id h.1, (hStage id h.1 (.inl h.2)).trans h.2⟩

theorem Sound.title (h : Sound configs b visits) (hCache : (visits i).stage.cache? = some id) :
    b.title id = some (visits i).name :=
  h.filed.named _ id ((h.fits i).entry hCache)

/-- A cache that is being set up is in the directory. -/
theorem Sound.of_building (h : Sound configs b visits) {name : String} {step : SetupStep}
    (hVisit : visits i = ⟨name, .building id step⟩) :
    b.entry name = some id ∧ b.stage id = some .running := by
  have hFits := h.fits i
  rwa [hVisit] at hFits

/-- As long as whoever sets a cache up did so before or found its setup not begun, no two do. -/
theorem Sound.alone_of (h : Sound configs b visits) (hOthers : ∀ j, j ≠ i → visits' j = visits j)
    (hSelf : ∀ id, (visits' i).stage.builds = some id →
      (visits i).stage.builds = some id ∨ b.stage id = some .pending) :
    ∀ j k id, (visits' j).stage.builds = some id → (visits' k).stage.builds = some id → j = k := by
  have hOther : ∀ k id, k ≠ i → (visits' i).stage.builds = some id →
      (visits' k).stage.builds ≠ some id := by
    intro k id hk hi hBuilds
    rw [hOthers k hk] at hBuilds
    rcases hSelf id hi with hBefore | hPending
    · exact hk (h.alone k i id hBuilds hBefore)
    · cases hPending.symm.trans ((h.fits k).running hBuilds)
  intro j k id hj hk
  by_cases hjSelf : j = i
  · subst hjSelf
    by_contra hNe
    exact hOther k id (Ne.symm hNe) hj hk
  · by_cases hkSelf : k = i
    · subst hkSelf
      exact absurd hj (hOther j id hjSelf hk)
    · rw [hOthers j hjSelf] at hj
      rw [hOthers k hkSelf] at hk
      exact h.alone j k id hj hk

/-- A cache of the directory is not a new one, and stays what it was. -/
theorem Books.add_of_entry {f : Face} (hFiled : Filed b) (hEntry : b.entry f.name = none)
    {name : String} (hFound : b.entry name = some id) :
    name ≠ f.name ∧ (b.add f).entry name = some id ∧ (b.add f).face id = b.face id := by
  have hOther : name ≠ f.name := by
    rintro rfl
    cases hEntry.symm.trans hFound
  exact ⟨hOther, (Function.update_of_ne hOther _ _).trans hFound,
    Function.update_of_ne (Nat.ne_of_lt (hFiled.entry_lt hFound)) _ _⟩

section Touching

variable {v' w : Visit}

theorem Touch.opened (h : Touch configs b v b' v') : b'.closed = b.closed := by
  cases h with
  | pass hKeeps => exact hKeeps.closed
  | create config hConfig hEntry hBooks => rw [hBooks, Books.add]
  | enter id hPending hKeeps => exact hKeeps.closed
  | leave id setup hBuilt hKeeps => exact hKeeps.closed

theorem Touch.filed (h : Touch configs b v b' v') (hFiled : Filed b) : Filed b' := by
  have hKept : b.Keeps b' → Filed b' := fun hKeeps =>
    hFiled.keep hKeeps.next hKeeps.title fun name id hEntry => hKeeps.entry ▸ hEntry
  cases h with
  | pass hKeeps => exact hKept hKeeps
  | create config hConfig hEntry hBooks => exact hBooks ▸ hFiled.add _
  | enter id hPending hKeeps => exact hKept hKeeps
  | leave id setup hBuilt hKeeps => exact hKept hKeeps

theorem Touch.tracks (h : Touch configs b v b' v') (hFiled : Filed b)
    (hTracks : ∀ name id config, b.entry name = some id → configs.find? name = some config →
      b.tracks id = config.invalidateOnChange) :
    ∀ name id config, b'.entry name = some id → configs.find? name = some config →
      b'.tracks id = config.invalidateOnChange := by
  intro name id config' hFound hConfig'
  have hKept : b.Keeps b' → b'.tracks id = config'.invalidateOnChange := fun hKeeps =>
    (hKeeps.tracks id).trans (hTracks name id config' (hKeeps.entry ▸ hFound) hConfig')
  cases h with
  | pass hKeeps => exact hKept hKeeps
  | create config hConfig hEntry hBooks =>
      subst hBooks
      by_cases hName : name = v.name
      · subst hName
        cases (Function.update_self ..).symm.trans hFound
        cases hConfig.symm.trans hConfig'
        simp [Books.tracks, Books.add, Face.fresh]
      · have hBefore := (Function.update_of_ne hName _ _).symm.trans hFound
        rw [Books.tracks, (Books.add_of_entry hFiled hEntry hBefore).2.2]
        exact hTracks name id config' hBefore hConfig'
  | enter id hPending hKeeps => exact hKept hKeeps
  | leave id setup hBuilt hKeeps => exact hKept hKeeps

theorem Touch.fits (h : Touch configs b v b' v') : v'.Fits configs b' := by
  cases h with
  | pass hKeeps hStage hFits =>
      exact hFits.keep (fun id hEntry => hKeeps.entry ▸ hEntry) fun id _ _ => hStage id
  | create config hConfig hEntry hBooks hFits => exact hFits
  | enter id hPending hKeeps hStage hFits => exact hFits
  | leave id setup hBuilt hKeeps hStage hFits => exact hFits

/-- Callers stay where they are in the steps of others. -/
theorem Touch.fits_other (h : Touch configs b v b' v') (hFiled : Filed b) (hv : v.Fits configs b)
    (hw : w.Fits configs b)
    (hApart : ∀ id, w.stage.builds = some id → v.stage.builds ≠ some id) :
    w.Fits configs b' := by
  -- Only a setup that has not begun begins, and only one that the caller is at ends.
  have hKept : b.Keeps b' → (∀ id, b.stage id = some .finished ∨ w.stage.builds = some id →
      b'.stage id = b.stage id) → w.Fits configs b' := fun hKeeps hStage =>
    hw.keep (fun id hEntry => hKeeps.entry ▸ hEntry) fun id _ => hStage id
  cases h with
  | pass hKeeps hStage => exact hKept hKeeps fun id _ => hStage id
  | create config hConfig hEntry hBooks =>
      subst hBooks
      refine hw.keep (fun id hFound => (Books.add_of_entry hFiled hEntry hFound).2.1) ?_
      intro id hFound _
      rw [Books.stage, Books.stage, (Books.add_of_entry hFiled hEntry hFound).2.2]
  | enter id hPending hKeeps hStage =>
      refine hKept hKeeps fun other hOther => (hStage other).trans (if_neg ?_)
      rintro rfl
      rcases hOther with hFinished | hBuilt
      · cases hPending.symm.trans hFinished
      · cases hPending.symm.trans (hw.running hBuilt)
  | leave id setup hBuilt hKeeps hStage =>
      refine hKept hKeeps fun other hOther => (hStage other).trans (if_neg ?_)
      rintro rfl
      rcases hOther with hFinished | hBuilt'
      · cases (hv.running hBuilt).symm.trans hFinished
      · exact hApart other hBuilt' hBuilt

/-- A cache goes on to want events, or to want none. -/
theorem Touch.tracks_of_known (h : Touch configs b v b' v') (hFiled : Filed b)
    (hKnown : b.stage id ≠ none) : b'.tracks id = b.tracks id := by
  cases h with
  | pass hKeeps => exact hKeeps.tracks id
  | create config hConfig hEntry hBooks =>
      have hOld : id ≠ b.nextCache := by
        rintro rfl
        exact hKnown (by rw [Books.stage, hFiled.unknown, Option.map_none])
      rw [hBooks]
      exact congrArg (Option.any Face.invalidates) (Function.update_of_ne hOld _ _)
  | enter other hPending hKeeps => exact hKeeps.tracks id
  | leave other setup hBuilt hKeeps => exact hKeeps.tracks id

/-- Whoever sets a cache up did so before, or found its setup not begun. -/
theorem Touch.enters (h : Touch configs b v b' v') (hBuilds : v'.stage.builds = some id) :
    v.stage.builds = some id ∨ b.stage id = some .pending := by
  cases h with
  | pass hKeeps hStage hFits hSame => exact .inl (hSame ▸ hBuilds)
  | create config hConfig hEntry hBooks hFits hNone => cases hNone.symm.trans hBuilds
  | enter other hPending hKeeps hStage hFits hSame =>
      cases hSame.symm.trans hBuilds
      exact .inr hPending
  | leave other setup hBuilt hKeeps hStage hFits hNone => cases hNone.symm.trans hBuilds

end Touching

theorem Sound.touch (h : Sound configs b visits)
    (hTouch : Touch configs b (visits i) b' (visits' i))
    (hOthers : ∀ j, j ≠ i → visits' j = visits j) : Sound configs b' visits' where
  opened := hTouch.opened.trans h.opened
  filed := hTouch.filed h.filed
  tracks := hTouch.tracks h.filed h.tracks
  fits j := by
    by_cases hSame : j = i
    · exact hSame ▸ hTouch.fits
    · rw [hOthers j hSame]
      exact hTouch.fits_other h.filed (h.fits i) (h.fits j) fun id hj hi =>
        hSame (h.alone j i id hj hi)
  alone := h.alone_of hOthers fun id => hTouch.enters

end Soundness

section Configurations

namespace Client

variable (s : Client)

theorem configs_repairGaps (ids : List CacheId) : (s.repairGaps ids).1.configs = s.configs := by
  induction ids generalizing s with
  | nil => rfl
  | cons id rest ih =>
      unfold repairGaps
      cases s.caches[id]? with
      | none => exact ih s
      | some cache => exact ih _

theorem configs_deliverTo (event : Event) (ids : List CacheId) :
    (s.deliverTo event ids).1.configs = s.configs := by
  induction ids generalizing s with
  | nil => rfl
  | cons id rest ih =>
      unfold deliverTo
      cases s.caches[id]? with
      | none => exact ih s
      | some cache =>
          cases hResult : (cache.onEvent event).2 with
          | ok done =>
              simp only [hResult]
              exact ih _
          | error fault =>
              simp only [hResult]
              rfl

theorem configs_beginPass (w : WorkerId) (worker : Worker) :
    (s.beginPass w worker).configs = s.configs := by
  have hRepaired := s.configs_repairGaps s.coherentCaches
  unfold beginPass
  dsimp only
  split
  · exact hRepaired
  · split <;> exact hRepaired

theorem configs_finishRound (w : WorkerId) (ids : List CacheId) (round : Round) :
    (s.finishRound w ids round).configs = s.configs := by
  unfold finishRound
  dsimp only
  split <;> rfl

/-- A worker does not change what caches are configured. -/
theorem configs_stepWorker (w : WorkerId) : (s.stepWorker w).1.configs = s.configs := by
  unfold stepWorker
  cases s.workers[w]? with
  | none => rfl
  | some worker =>
      dsimp only
      cases worker.stage with
      | ready =>
          dsimp only
          split
          · rfl
          · exact s.configs_beginPass w worker
      | fetching ids round =>
          dsimp only [takeReplies]
          split
          · rfl
          · split
            · exact s.configs_finishRound w ids _
            · rfl
      | sleeping due => rfl
      | exited => rfl
      | aborted => rfl

end Client

end Configurations

/-- The cache that the books know. -/
theorem Client.cache_of_stage {s : Client} {id : CacheId} {setup : Setup}
    (h : s.books.stage id = some setup) :
    ∃ cache, s.caches[id]? = some cache ∧ cache.setup = setup ∧ s.books.mode id = cache.mode := by
  cases hKnown : s.caches[id]? with
  | none => simp [Books.stage, books, hKnown] at h
  | some cache =>
      have hSetup : cache.setup = setup := by simpa [Books.stage, books, Cache.face, hKnown] using h
      refine ⟨cache, rfl, hSetup, ?_⟩
      rw [Books.mode]
      simp only [books, hKnown]
      rfl

/-- A fault has stopped the caller. -/
def Caller.Aborted (caller : Caller) : Prop :=
  ∃ fault, caller.activity.outcome = .faulted fault

instance : DecidablePred Caller.Aborted := fun caller =>
  match h : caller.activity.outcome with
  | .faulted fault => isTrue ⟨fault, h⟩
  | .done | .flag _ | .handle _ | .subscribed _ | .unsubscribed _ | .fetched .. | .answered _ =>
    isFalse fun ⟨_, h'⟩ => by cases h.symm.trans h'

namespace Traffic

/-- What may happen while caches are opened. -/
inductive Hazard where
  | call (call : Call)
  /-- Members that are asked break down from now on, or do so no more. -/
  | breakDown (on : Bool)

def meet (t : Traffic) : Hazard → Traffic
  | .call call => t.perform call
  | .breakDown on =>
    t.withClient (t.client.withCluster { t.client.cluster with faults.breakDown := on })

def meetAll : Traffic → List Hazard → Traffic :=
  History.run meet

def trail : Traffic → List Hazard → List (Traffic × Hazard) :=
  History.steps meet

end Traffic

/-- What goes on beside the callers: caches, directory and listeners stay as they are, and the
cluster goes on to answer listener requests as it did. -/
structure Books.Beside (b b' : Books) : Prop where
  face : b'.face = b.face
  entry : b'.entry = b.entry
  next : b'.nextCache = b.nextCache
  closed : b'.closed = b.closed
  registered : b'.registered = b.registered
  bound : b'.bound = b.bound
  issued : b'.nextRegistration = b.nextRegistration
  confuses : b'.faults.confuseAdd = b.faults.confuseAdd
  loses : b'.faults.loseRemove = b.faults.loseRemove

theorem Books.Beside.of_eq {b b' : Books} (h : b' = b) : b.Beside b' := by
  subst h
  exact ⟨rfl, rfl, rfl, rfl, rfl, rfl, rfl, rfl, rfl⟩

theorem Sound.beside {configs : ConfigCatalog} {b b' : Books} {visits : Nat → Visit}
    (h : Sound configs b visits) (hBeside : b.Beside b') : Sound configs b' visits := by
  have hStage : ∀ id, b'.stage id = b.stage id := fun id => by rw [Books.stage, hBeside.face]; rfl
  have hKeeps : b.Keeps b' := by
    refine ⟨hBeside.closed, hBeside.entry, hBeside.next, fun id => ?_, fun id => ?_⟩
    · rw [Books.title, hBeside.face]
      rfl
    · rw [Books.tracks, hBeside.face]
      rfl
  have hFits : (visits 0).Fits configs b :=  h.fits 0
  exact h.touch (i := 0) (.pass hKeeps hStage hFits rfl) fun _ _ => rfl

namespace Traffic

/-- Every caller asks for a cache, and is where its visit has it. -/
structure Visited (t : Traffic) (configs : ConfigCatalog) (visits : Nat → Visit) : Prop where
  catalog : t.client.configs = configs
  sound : Sound configs t.client.books visits
  asks : ∀ (i : Nat) (caller : Caller), t.callers[i]? = some caller →
    caller.operation = .getOrCreate (visits i).name ∧ caller.activity.Follows (visits i)
  beyond : ∀ i : Nat, t.callers[i]? = none → (visits i).stage = .asking

/-- What happens to visits: nothing, or one begins, or one goes on. -/
inductive Happens (t : Traffic) (visits : Nat → Visit) : Hazard → Traffic → (Nat → Visit) → Prop
  | beside {hazard t'} (hIdle : ∀ i, hazard = .call (.advance i) → t' = t)
      (hCallers : t'.callers = t.callers) (hBeside : t.client.books.Beside t'.client.books)
      (hConfigs : t'.client.configs = t.client.configs) : Happens t visits hazard t' visits
  | begin (name : String) :
      Happens t visits (.call (.begin (.getOrCreate name))) (t.begin (.getOrCreate name))
        (Function.update visits t.callers.length ⟨name, .asking⟩)
  | move {i t'} (caller : Caller) (sent : List Request) (stage : Stage) (a : Activity)
      (hCaller : t.callers[i]? = some caller)
      (hProceeds : Proceeds t.client (visits i).name (visits i).stage sent t'.client stage)
      (hFollows : a.Follows ⟨(visits i).name, stage⟩)
      (hCallers : t'.callers = t.callers.set i { caller with activity := a }) :
      Happens t visits (.call (.advance i)) t' (Function.update visits i ⟨(visits i).name, stage⟩)

section Happening

variable {t t' : Traffic} {configs : ConfigCatalog} {visits visits' : Nat → Visit} {hazard : Hazard}

/-- What is no matter of the callers goes on beside them. -/
theorem beside_meet (t : Traffic) (hBegin : ∀ operation, hazard ≠ .call (.begin operation))
    (hAdvance : ∀ i, hazard ≠ .call (.advance i)) :
    (t.meet hazard).callers = t.callers ∧ t.client.books.Beside (t.meet hazard).client.books ∧
      (t.meet hazard).client.configs = t.client.configs := by
  cases hazard with
  | breakDown on => exact ⟨rfl, ⟨rfl, rfl, rfl, rfl, rfl, rfl, rfl, rfl, rfl⟩, rfl⟩
  | call call =>
      cases call with
      | begin operation => exact absurd rfl (hBegin operation)
      | advance i => exact absurd rfl (hAdvance i)
      | work w =>
          simp only [meet, perform]
          split
          · refine ⟨rfl, ?_, t.client.configs_stepWorker w⟩
            rcases t.client.books_stepWorker (w := w) with hSame | ⟨-, hRetired⟩
            · exact .of_eq hSame
            · have hBooks : (t.withClient (t.client.stepWorker w).1).client.books =
                  t.client.books.retire w := hRetired
              rw [hBooks]
              exact ⟨rfl, rfl, rfl, rfl, rfl, rfl, rfl, rfl, rfl⟩
          · exact ⟨rfl, .of_eq rfl, rfl⟩
      | wait millis => exact ⟨rfl, .of_eq rfl, rfl⟩
      | change conditions => exact ⟨rfl, ⟨rfl, rfl, rfl, rfl, rfl, rfl, rfl, rfl, rfl⟩, rfl⟩
      | deliver name event =>
          exact ⟨rfl, .of_eq (t.client.books_deliver name event),
            t.client.configs_deliverTo event _⟩

/-- A step of a caller. -/
theorem Visited.touch (h : t.Visited configs visits) {i : Nat} {sent : List Request} {s' : Client}
    {stage : Stage} (hProceeds : Proceeds t.client (visits i).name (visits i).stage sent s' stage) :
    Touch configs t.client.books (visits i) s'.books ⟨(visits i).name, stage⟩ := by
  have hTouch := hProceeds.move.touch (h.catalog ▸ h.sound.fits i)
  rwa [h.catalog] at hTouch

theorem Visited.happens (h : t.Visited configs visits)
    (hAsks : ∀ operation, hazard = .call (.begin operation) →
      ∃ name, operation = .getOrCreate name) :
    ∃ visits', t.Happens visits hazard (t.meet hazard) visits' := by
  by_cases hBegin : ∃ operation, hazard = .call (.begin operation)
  · obtain ⟨operation, rfl⟩ := hBegin
    obtain ⟨name, rfl⟩ := hAsks operation rfl
    exact ⟨_, .begin name⟩
  by_cases hAdvance : ∃ i, hazard = .call (.advance i)
  · obtain ⟨i, rfl⟩ := hAdvance
    simp only [meet, perform, advance]
    cases hCaller : t.callers[i]? with
    | none => exact ⟨visits, .beside (fun _ _ => rfl) rfl (.of_eq rfl) rfl⟩
    | some caller =>
        obtain ⟨-, hFollows⟩ := h.asks i caller hCaller
        obtain ⟨sent, stage, hProceeds, hFollows'⟩ := Client.proceeds_of_follows hFollows
          h.sound.opened fun id => h.sound.title
        exact ⟨_, .move caller sent stage _ hCaller hProceeds hFollows' rfl⟩
  · obtain ⟨hCallers, hBeside, hConfigs⟩ := t.beside_meet (not_exists.mp hBegin)
      (not_exists.mp hAdvance)
    exact ⟨visits, .beside (fun i hSame => absurd ⟨i, hSame⟩ hAdvance) hCallers hBeside hConfigs⟩

theorem Happens.visited (hHappens : t.Happens visits hazard t' visits')
    (h : t.Visited configs visits) : t'.Visited configs visits' := by
  cases hHappens with
  | beside hIdle hCallers hBeside hConfigs =>
      exact ⟨hConfigs.trans h.catalog, h.sound.beside hBeside, hCallers ▸ h.asks,
        hCallers ▸ h.beyond⟩
  | begin name =>
      have hNone : t.callers[t.callers.length]? = none := List.getElem?_eq_none (Nat.le_refl _)
      have hOthers : ∀ j, j ≠ t.callers.length →
          Function.update visits t.callers.length ⟨name, .asking⟩ j = visits j :=
        fun j hOther => Function.update_of_ne hOther _ _
      have hSelf := Function.update_self t.callers.length (⟨name, .asking⟩ : Visit) visits
      refine ⟨h.catalog, h.sound.touch (i := t.callers.length) ?_ hOthers,
        fun j caller hCaller => ?_, fun j hNone' => ?_⟩
      · rw [hSelf]
        refine .pass (.refl _) (fun _ => rfl) trivial ?_
        rw [h.beyond _ hNone]
      · by_cases hSame : j = t.callers.length
        · subst hSame
          cases List.getElem?_concat_length.symm.trans hCaller
          rw [hSelf]
          exact ⟨rfl, rfl, by rintro _ ⟨⟩⟩
        · have hLess := (List.getElem?_eq_some_iff.mp hCaller).1
          simp only [Traffic.begin, List.length_append, List.length_singleton] at hLess
          have hBefore := Nat.lt_of_le_of_ne (Nat.le_of_lt_succ hLess) hSame
          rw [hOthers j hSame]
          exact h.asks j caller ((List.getElem?_append_left hBefore).symm.trans hCaller)
      · have hBeyond := List.getElem?_eq_none_iff.mp hNone'
        simp only [Traffic.begin, List.length_append, List.length_singleton] at hBeyond
        rw [hOthers j (Nat.ne_of_gt hBeyond)]
        exact h.beyond j (List.getElem?_eq_none (Nat.le_of_succ_le hBeyond))
  | @move i _ caller sent stage a hCaller hProceeds hFollows hCallers =>
      have hOthers : ∀ j, j ≠ i →
          Function.update visits i ⟨(visits i).name, stage⟩ j = visits j :=
        fun j hOther => Function.update_of_ne hOther _ _
      have hSelf := Function.update_self i (⟨(visits i).name, stage⟩ : Visit) visits
      obtain ⟨hLess, -⟩ := List.getElem?_eq_some_iff.mp hCaller
      refine ⟨hProceeds.configs.trans h.catalog, h.sound.touch (i := i) ?_ hOthers,
        fun j other hOther => ?_, fun j hNone => ?_⟩
      · rw [hSelf]
        exact h.touch hProceeds
      · rw [hCallers] at hOther
        by_cases hSame : j = i
        · subst hSame
          cases (List.getElem?_set_self hLess).symm.trans hOther
          rw [hSelf]
          exact ⟨(h.asks j caller hCaller).1, hFollows⟩
        · rw [hOthers j hSame]
          exact h.asks j other ((List.getElem?_set_ne (Ne.symm hSame)).symm.trans hOther)
      · rw [hCallers, List.getElem?_eq_none_iff, List.length_set] at hNone
        rw [hOthers j (Nat.ne_of_gt (Nat.lt_of_lt_of_le hLess hNone))]
        exact h.beyond j (List.getElem?_eq_none hNone)

/-- A caller that a fault has stopped stays where it is. -/
theorem Happens.aborted (h : t.Happens visits hazard t' visits')
    (hVisited : t.Visited configs visits) {i : Nat} {fault : Fault}
    (hAborted : (visits i).stage = .aborted fault) : visits' i = visits i := by
  cases h with
  | beside => rfl
  | begin other =>
      refine Function.update_of_ne ?_ _ _
      rintro rfl
      have hAsking := hVisited.beyond _ (List.getElem?_eq_none (Nat.le_refl t.callers.length))
      cases hAborted.symm.trans hAsking
  | @move j _ caller sent stage a hCaller hProceeds =>
      by_cases hSame : i = j
      · subst hSame
        have hMove := hProceeds.move
        rw [hAborted] at hMove
        rw [Function.update_self, hMove.stage_of_aborted, ← hAborted]
      · exact Function.update_of_ne hSame _ _

end Happening

section Results

variable {t : Traffic} {configs : ConfigCatalog} {visits : Nat → Visit} {caller : Caller}
  {name : String}

/-- Behind a visit that a fault has stopped is a caller that it has stopped. -/
theorem Visited.caller_of_aborted (h : t.Visited configs visits) {i : Nat} {fault : Fault}
    (hStage : (visits i).stage = .aborted fault) :
    ∃ caller, t.callers[i]? = some caller ∧ caller.operation = .getOrCreate (visits i).name ∧
      caller.Aborted := by
  cases hCaller : t.callers[i]? with
  | none => cases (h.beyond i hCaller).symm.trans hStage
  | some caller =>
      obtain ⟨hOperation, hFollows⟩ := h.asks i caller hCaller
      refine ⟨caller, rfl, hOperation, fault, hFollows.outcome _ ?_⟩
      rw [hStage]
      rfl

/-- A caller that no fault has stopped has the cache of the name, and that is set up. -/
theorem Visited.served (h : t.Visited configs visits) {config : CacheConfig}
    (hConfig : configs.find? name = some config) (hCaller : caller ∈ t.callers)
    (hOperation : caller.operation = .getOrCreate name) (hOver : caller.activity.isOver)
    (hUnharmed : ¬caller.Aborted) :
    ∃ id, t.client.books.entry name = some id ∧ t.client.books.stage id = some .finished ∧
      caller.activity.outcome = .handle (some id) := by
  obtain ⟨i, hPlace⟩ := List.mem_iff_getElem?.mp hCaller
  obtain ⟨hOperation', hFollows⟩ := h.asks i caller hPlace
  have hFits := h.sound.fits i
  have hTodo : (visits i).stage.actions (visits i).name = [] :=
    hFollows.todo.symm.trans (List.isEmpty_iff.mp hOver)
  generalize visits i = visit at hOperation' hFollows hFits hTodo
  obtain ⟨name', stage⟩ := visit
  cases hOperation'.symm.trans hOperation
  cases stage with
  | served id => exact ⟨id, hFits.1, hFits.2, hFollows.outcome _ rfl⟩
  | declined => cases hConfig.symm.trans hFits
  | aborted fault => exact absurd ⟨fault, hFollows.outcome _ rfl⟩ hUnharmed
  | building id step => cases step <;> cases hTodo
  | _ => cases hTodo

end Results

/-- Nobody has asked for anything yet. -/
theorem visited_start (configs : ConfigCatalog) (coherence : CoherenceConfig) (cluster : Cluster)
    (name : String) :
    (start configs coherence cluster).Visited configs fun _ => ⟨name, .asking⟩ := by
  refine ⟨rfl, ⟨rfl, ⟨fun id hKnown => ?_, fun name id hEntry => ?_⟩,
    fun name id config hEntry => ?_, fun _ => trivial, fun i j id hBuilds => ?_⟩,
    fun i caller hCaller => ?_, fun _ _ => rfl⟩
  · simp [start, Client.books, Client.create, Books.title] at hKnown
  · simp [start, Client.books, Client.create] at hEntry
  · simp [start, Client.books, Client.create] at hEntry
  · cases hBuilds
  · cases (List.getElem?_nil (i := i)).symm.trans hCaller

/-- What holds before anybody has asked for a cache, and goes on to hold with every step of a visit,
holds all along. -/
theorem visited_of_run (configs : ConfigCatalog) (coherence : CoherenceConfig) (cluster : Cluster)
    (name : String) {P : Traffic → List (Traffic × Hazard) → (Nat → Visit) → Prop}
    (hStart : P (start configs coherence cluster) [] fun _ => ⟨name, .asking⟩)
    (hazards : List Hazard)
    (hStep : ∀ t history visits hazard visits', hazard ∈ hazards → t.Visited configs visits →
      P t history visits → t.Happens visits hazard (t.meet hazard) visits' →
      P (t.meet hazard) (history ++ [(t, hazard)]) visits')
    (hAsks : ∀ operation, .call (.begin operation) ∈ hazards →
      ∃ name, operation = .getOrCreate name) :
    ∃ visits, (meetAll (.start configs coherence cluster) hazards).Visited configs visits ∧
      P (meetAll (.start configs coherence cluster) hazards)
        (trail (.start configs coherence cluster) hazards) visits := by
  induction hazards using List.reverseRecOn with
  | nil => exact ⟨_, visited_start configs coherence cluster name, hStart⟩
  | append_singleton hazards hazard ih =>
      obtain ⟨visits, hVisited, hBefore⟩ := ih
        (fun t history visits hazard visits' hm => hStep _ _ _ _ _ (List.mem_append_left _ hm))
        fun operation hm => hAsks operation (List.mem_append_left _ hm)
      rw [meetAll, History.run_concat, ← meetAll, trail, History.steps_concat, ← trail, ← meetAll]
      have hLast : ∀ operation, hazard = .call (.begin operation) →
          ∃ name, operation = .getOrCreate name := fun operation hSame =>
        hAsks operation (List.mem_append_right _ (List.mem_singleton.mpr hSame.symm))
      obtain ⟨visits', hHappens⟩ := hVisited.happens hLast
      exact ⟨visits', hHappens.visited hVisited,
        hStep _ _ _ _ _ (by simp) hVisited hBefore hHappens⟩

end Traffic

end NearCache
