import NearCache.Proofs.Client.Opening

/-!
What callers ask of the cluster while caches are opened. However many of them ask for one cache, and
in whatever order they pass the directory and the entrance of the setup, one listener is asked for
and one report of each member, and nobody gets the cache before that is over.
-/

namespace NearCache

/-- The request is for the cache of a name. -/
def Request.concerns (name : String) : Request → Bool
  | .addListener cacheName _ _ | .removeListener cacheName _ => cacheName = name
  | .fetchMetadata names => names.contains name

/-- A visit asks for nothing but its own cache. -/
theorem Move.silent {s : Client} {name other : String} {stage stage' : Stage} {sent : List Request}
    {b' : Books} (h : Move s name stage sent b' stage') (hOther : other ≠ name) :
    sent.filter (Request.concerns other) = [] := by
  have hNames : Request.concerns other (.fetchMetadata [name]) = false := by
    simp [Request.concerns, hOther]
  cases h with
  | request => simp [Request.concerns, hOther.symm]
  | seed => simp [hNames]
  | abort hSent =>
      rw [List.filter_eq_nil_iff]
      intro request hm
      rw [hSent request hm, hNames]
      decide
  | _ => rfl

namespace Traffic

/-- The requests of a caller that reach the cluster in a step, in order. -/
def requests : Traffic × Hazard → List Request
  | (t, .call (.advance i)) =>
    let log := (t.advance i).client.cluster.log
    (log.take (log.length - t.client.cluster.log.length)).reverse
  | _ => []

/-- What callers have asked of the cluster for the cache of a name. -/
def requested (name : String) (history : List (Traffic × Hazard)) : List Request :=
  (history.flatMap requests).filter (Request.concerns name)

/-- In this step a caller asks every member once for its report on a cache. -/
def AsksMembers (name : String) (step : Traffic × Hazard) : Prop :=
  requests step = List.replicate step.1.client.cluster.members.size (.fetchMetadata [name]) ∧
    ∃ i caller id round rest, step.2 = .call (.advance i) ∧
      (step.1.advance i).callers[i]? = some caller ∧
      caller.activity.todo = .awaitSeed id round :: rest ∧
      round.calls.map Call.place = List.range step.1.client.cluster.members.size

/-- A listener was asked for, and later every member once for its report, and nothing else. -/
def AskedForReports (name : String) (shape : EventShape) (history : List (Traffic × Hazard)) :
    Prop :=
  ∃ before step after, history = before ++ step :: after ∧
    requested name before = [.addListener name shape true] ∧ AsksMembers name step ∧
    requested name after = []

/-- All that was asked for a cache that is set up: nothing if it wants no events, a listener if one
of the legacy kind was granted, and otherwise a listener and the reports of the members. -/
structure AskedOnce (name : String) (tracks : Bool) (mode : CoherenceMode)
    (history : List (Traffic × Hazard)) : Prop where
  untracked : tracks = false → requested name history = []
  legacy : tracks = true → mode = .legacy →
    requested name history = [.addListener name .legacy true]
  coherent : tracks = true → mode ≠ .legacy → ∃ shape, AskedForReports name shape history

section Requests

variable {t t' : Traffic} {visits visits' : Nat → Visit} {name : String}
  {history : List (Traffic × Hazard)} {step : Traffic × Hazard}

theorem requested_concat (name : String) (history : List (Traffic × Hazard))
    (step : Traffic × Hazard) :
    requested name (history ++ [step]) =
      requested name history ++ (requests step).filter (Request.concerns name) := by
  simp [requested]

theorem requested_of_silent (history : List (Traffic × Hazard))
    (hSilent : (requests step).filter (Request.concerns name) = []) :
    requested name (history ++ [step]) = requested name history := by
  rw [requested_concat, hSilent, List.append_nil]

/-- What a caller has asked of the cluster in a step of its visit stands in the log. -/
theorem requests_of_log {i : Nat} {sent : List Request}
    (hLog : (t.advance i).client.cluster.log = sent.reverse ++ t.client.cluster.log) :
    requests (t, .call (.advance i)) = sent := by
  have hLength : (sent.reverse ++ t.client.cluster.log).length - t.client.cluster.log.length =
      sent.reverse.length := by
    rw [List.length_append, Nat.add_sub_cancel]
  simp only [requests, hLog, hLength, List.take_left', List.reverse_reverse]

theorem AskedForReports.concat {shape : EventShape} (h : AskedForReports name shape history)
    (hSilent : (requests step).filter (Request.concerns name) = []) :
    AskedForReports name shape (history ++ [step]) := by
  obtain ⟨before, asking, after, rfl, hBefore, hAsks, hAfter⟩ := h
  refine ⟨before, asking, after ++ [step], by simp, hBefore, hAsks, ?_⟩
  rw [requested_of_silent after hSilent, hAfter]

theorem AskedOnce.concat {tracks : Bool} {mode : CoherenceMode}
    (h : AskedOnce name tracks mode history)
    (hSilent : (requests step).filter (Request.concerns name) = []) :
    AskedOnce name tracks mode (history ++ [step]) := by
  have hSame := requested_of_silent history hSilent
  refine ⟨fun hTracks => hSame.trans (h.untracked hTracks),
    fun hTracks hMode => hSame.trans (h.legacy hTracks hMode), fun hTracks hMode => ?_⟩
  obtain ⟨shape, hAsked⟩ := h.coherent hTracks hMode
  exact ⟨shape, hAsked.concat hSilent⟩

end Requests

/-- What has been asked for a cache whose setup is at a step. -/
def Due (name : String) (b : Books) (id : CacheId) (history : List (Traffic × Hazard)) :
    SetupStep → Prop
  | .requesting => b.tracks id ∧ b.held id = none ∧ requested name history = []
  | .awaiting shape _ =>
    b.tracks id ∧ b.held id = none ∧ requested name history = [.addListener name shape true]
  | .seeding _ => b.tracks id ∧ b.mode id ≠ .legacy ∧
    ∃ shape, requested name history = [.addListener name shape true]
  | .collecting _ | .starting =>
    b.tracks id ∧ b.mode id ≠ .legacy ∧ ∃ shape, AskedForReports name shape history
  | .finishing => AskedOnce name (b.tracks id) (b.mode id) history

/-- What has been asked for the cache of a name is what its setup has come to. -/
structure Counted (name : String) (b : Books) (history : List (Traffic × Hazard))
    (visits : Nat → Visit) : Prop where
  absent : b.entry name = none → requested name history = []
  pending : ∀ id, b.entry name = some id → b.stage id = some .pending →
    b.held id = none ∧ requested name history = []
  built : ∀ i id step, visits i = ⟨name, .building id step⟩ → Due name b id history step
  finished : ∀ id, b.entry name = some id → b.stage id = some .finished →
    AskedOnce name (b.tracks id) (b.mode id) history

section Keeping

variable {b b' : Books} {history : List (Traffic × Hazard)} {visits visits' : Nat → Visit}
  {name : String} {id : CacheId} {last : Traffic × Hazard}

theorem Due.concat {step : SetupStep} (h : Due name b id history step)
    (hFace : b'.face id = b.face id)
    (hSilent : (requests last).filter (Request.concerns name) = []) :
    Due name b' id (history ++ [last]) step := by
  have hSame := requested_of_silent history hSilent
  have hTracks : b'.tracks id = b.tracks id := by rw [Books.tracks, hFace]; rfl
  have hHeld : b'.held id = b.held id := by rw [Books.held, hFace]; rfl
  have hMode : b'.mode id = b.mode id := by rw [Books.mode, hFace]; rfl
  cases step with
  | requesting => rwa [Due, hTracks, hHeld, hSame]
  | awaiting shape due => rwa [Due, hTracks, hHeld, hSame]
  | seeding limit => rwa [Due, hTracks, hMode, hSame]
  | collecting round =>
      obtain ⟨hTracked, hNotLegacy, shape, hAsked⟩ := h
      exact ⟨hTracks ▸ hTracked, hMode ▸ hNotLegacy, shape, hAsked.concat hSilent⟩
  | starting =>
      obtain ⟨hTracked, hNotLegacy, shape, hAsked⟩ := h
      exact ⟨hTracks ▸ hTracked, hMode ▸ hNotLegacy, shape, hAsked.concat hSilent⟩
  | finishing =>
      rw [Due, hTracks, hMode]
      exact AskedOnce.concat h hSilent

/-- A cache is set up, for which nothing was asked before. -/
theorem Due.of_enter {f : Face} (hFace : b.face id = some f) (hVacant : b.held id = none)
    (hNone : requested name history = []) :
    Due name (b.changeFace id fun f => { f with setup := .running }) id history
      (if f.invalidates then .requesting else .finishing) := by
  have hHeld : (b.changeFace id fun f => { f with setup := .running }).held id = b.held id :=
    b.held_changeFace_of_same id id fun _ => rfl
  have hTracks : (b.changeFace id fun f => { f with setup := .running }).tracks id =
      f.invalidates := by
    rw [Books.tracks, b.face_changeFace hFace]
    rfl
  cases hTracked : f.invalidates with
  | true => exact ⟨hTracks.trans hTracked, hHeld.trans hVacant, hNone⟩
  | false =>
      simp only [Bool.false_eq_true, if_false, Due, hTracks, hTracked]
      exact ⟨fun _ => hNone, by rintro ⟨⟩, by rintro ⟨⟩⟩

/-- The listener that was asked for is granted, and nothing else is needed if it is of the legacy
kind. -/
theorem Due.of_grant {f : Face} {shape : EventShape} {limit : Duration} (hFace : b.face id = some f)
    (hTracked : b.tracks id) (hOne : requested name history = [.addListener name shape true]) :
    Due name (b.install id f shape) id history (.afterGrant limit shape) := by
  have hFace' : (b.install id f shape).face id = some { f with
      subscription := some (b.granted f.name shape), pushUnavailable := false } :=
    b.face_changeFace hFace
  have hHeld : (b.install id f shape).held id = some (b.granted f.name shape) := by
    rw [Books.held, hFace', Option.bind_some]
  have hMode : (b.install id f shape).mode id = shape.mode := Books.mode_of_held _ hHeld
  have hTracked' : (b.install id f shape).tracks id = true := by
    rw [Books.tracks, hFace] at hTracked
    rwa [Books.tracks, hFace']
  cases shape with
  | repairable => exact ⟨hTracked', by rw [hMode]; decide, .repairable, hOne⟩
  | legacy =>
      simp only [SetupStep.afterGrant, Due, hTracked', hMode]
      exact ⟨by rintro ⟨⟩, fun _ _ => hOne, fun _ hNot => absurd rfl hNot⟩

/-- The listener that was asked for is refused, so that reports are needed. -/
theorem Due.of_refusal {shape : EventShape} {limit : Duration} (hTracked : b.tracks id)
    (hVacant : b.held id = none) (hOne : requested name history = [.addListener name shape true]) :
    Due name (b.changeFace id fun f => { f with pushUnavailable := true }) id history
      (.seeding limit) := by
  have hTracks : (b.changeFace id fun f => { f with pushUnavailable := true }).tracks id =
      b.tracks id := b.tracks_changeFace_of_same id id fun _ => rfl
  have hHeld : (b.changeFace id fun f => { f with pushUnavailable := true }).held id = b.held id :=
    b.held_changeFace_of_same id id fun _ => rfl
  exact ⟨hTracks.trans hTracked, Books.mode_ne_legacy_of_vacant _ (hHeld.trans hVacant), shape,
    hOne⟩

/-- With the reports of the members all has been asked for a cache. -/
theorem Due.finishing (h : Due name b id history .starting) : Due name b id history .finishing := by
  obtain ⟨hTracked, hNotLegacy, hAsked⟩ := h
  refine ⟨fun hUntracked => ?_, fun _ hLegacy => absurd hLegacy hNotLegacy, fun _ _ => hAsked⟩
  cases hUntracked.symm.trans hTracked

/-- A step in which nothing is asked for a cache, and nothing comes of it. -/
theorem Counted.keep (h : Counted name b history visits) (hEntry : b'.entry name = b.entry name)
    (hFace : ∀ id, b.entry name = some id → b'.face id = b.face id)
    (hSilent : (requests last).filter (Request.concerns name) = [])
    (hBuilt : ∀ i id step, visits' i = ⟨name, .building id step⟩ →
      b.entry name = some id ∧ Due name b id history step) :
    Counted name b' (history ++ [last]) visits' := by
  have hSame := requested_of_silent history hSilent
  refine ⟨fun hNone => ?_, fun id hFound hPending => ?_, fun i id step hBuilds => ?_,
    fun id hFound hFinished => ?_⟩
  · exact hSame.trans (h.absent (hEntry ▸ hNone))
  · rw [hEntry] at hFound
    have hSameFace := hFace id hFound
    rw [Books.stage, hSameFace] at hPending
    rw [Books.held, hSameFace, hSame]
    exact h.pending id hFound hPending
  · obtain ⟨hFound, hDue⟩ := hBuilt i id step hBuilds
    exact hDue.concat (hFace id hFound) hSilent
  · rw [hEntry] at hFound
    have hSameFace := hFace id hFound
    rw [Books.stage, hSameFace] at hFinished
    have hAsked := (h.finished id hFound hFinished).concat hSilent
    rw [Books.tracks, Books.mode, hSameFace]
    exact hAsked

end Keeping

section Moving

variable {t : Traffic} {configs : ConfigCatalog} {b b' : Books} {i : Nat} {name : String}
  {visits visits' : Nat → Visit} {stage stage' : Stage} {sent : List Request} {id : CacheId}
  {history : List (Traffic × Hazard)} {last : Traffic × Hazard}

/-- What counts for a name that has a cache is what its setup has come to. -/
theorem Sound.counted (hSound : Sound configs b visits) (hEntry : b.entry name = some id)
    (hPending : b.stage id = some .pending → b.held id = none ∧ requested name history = [])
    (hBuilt : ∀ j step, visits j = ⟨name, .building id step⟩ → Due name b id history step)
    (hFinished : b.stage id = some .finished →
      AskedOnce name (b.tracks id) (b.mode id) history) : Counted name b history visits := by
  refine ⟨fun hNone => ?_, fun other hOther => ?_, fun j other step hBuilds => ?_,
    fun other hOther => ?_⟩
  · cases hNone.symm.trans hEntry
  · cases hEntry.symm.trans hOther
    exact hPending
  · cases hEntry.symm.trans (hSound.of_building hBuilds).1
    exact hBuilt j step hBuilds
  · cases hEntry.symm.trans hOther
    exact hFinished

/-- A caller that sets up a cache is the only one, and all depends on the step it is at. -/
theorem Sound.counted_of_building (hSound : Sound configs b visits) {step : SetupStep}
    (hVisit : visits i = ⟨name, .building id step⟩) (hDue : Due name b id history step) :
    Counted name b history visits := by
  obtain ⟨hEntry, hRunning⟩ := hSound.of_building hVisit
  refine Sound.counted hSound hEntry (fun hPending => ?_) (fun j step' hBuilds => ?_)
    fun hFinished => ?_
  · cases hRunning.symm.trans hPending
  · obtain rfl : j = i := hSound.alone j i id (by rw [hBuilds]; rfl) (by rw [hVisit]; rfl)
    cases hVisit.symm.trans hBuilds
    exact hDue
  · cases hRunning.symm.trans hFinished

/-- Callers that find the cache in the course of its setup, or after it, change nothing. -/
theorem Counted.rest (h : Counted name b history visits) (hSound : Sound configs b visits)
    (hSilent : requests last = []) (hOthers : ∀ j, j ≠ i → visits' j = visits j)
    (hBuilds : (visits' i).stage.builds = none) : Counted name b (history ++ [last]) visits' := by
  refine h.keep rfl (fun _ _ => rfl) (by rw [hSilent]; rfl) fun j id step hVisit => ?_
  by_cases hSame : j = i
  · rw [← hSame, hVisit] at hBuilds
    cases hBuilds
  · rw [hOthers j hSame] at hVisit
    exact ⟨(hSound.of_building hVisit).1, h.built j id step hVisit⟩

/-- For a cache that was not there nothing has been asked. -/
theorem Counted.create {f : Face} (h : Counted name b history visits)
    (hSound' : Sound configs (b.add f) visits') (hEntry : b.entry name = none)
    (hFresh : f = .fresh name f.invalidates) (hSilent : requests last = []) :
    Counted name (b.add f) (history ++ [last]) visits' := by
  have hFace : (b.add f).face b.nextCache = some f := Function.update_self ..
  have hStage : (b.add f).stage b.nextCache = some .pending := by
    rw [Books.stage, hFace, hFresh]
    rfl
  have hFiled : (b.add f).entry name = some b.nextCache := by
    rw [hFresh]
    exact Function.update_self ..
  refine Sound.counted hSound' hFiled (fun _ => ⟨?_, ?_⟩) (fun j step hBuilds => ?_)
    fun hFinished => ?_
  · rw [Books.held, hFace, hFresh]
    rfl
  · exact (requested_of_silent history (by rw [hSilent]; rfl)).trans (h.absent hEntry)
  · cases hStage.symm.trans (hSound'.of_building hBuilds).2
  · cases hStage.symm.trans hFinished

/-- A setup that is over leaves what has been asked for its cache. -/
theorem Counted.finish (hSound' : Sound configs
      (b.changeFace id fun f => { f with setup := .finished }) visits')
    (hVisit' : visits' i = ⟨name, .handing id⟩)
    (hAsked : AskedOnce name (b.tracks id) (b.mode id) history) (hSilent : requests last = []) :
    Counted name (b.changeFace id fun f => { f with setup := .finished }) (history ++ [last])
      visits' := by
  have hFits' := hSound'.fits i
  rw [hVisit'] at hFits'
  obtain ⟨hEntry, hFinished⟩ := hFits'
  refine Sound.counted hSound' hEntry (fun hPending => ?_) (fun j step hBuilds => ?_) fun _ => ?_
  · cases hFinished.symm.trans hPending
  · cases hFinished.symm.trans (hSound'.of_building hBuilds).2
  · have hTracks : (b.changeFace id fun f => { f with setup := .finished }).tracks id =
        b.tracks id := b.tracks_changeFace_of_same id id fun _ => rfl
    have hMode : (b.changeFace id fun f => { f with setup := .finished }).mode id = b.mode id :=
      b.mode_changeFace_of_same id id fun _ => rfl
    rw [hTracks, hMode]
    exact hAsked.concat (by rw [hSilent]; rfl)

/-- What a step of a setup asks for its cache is what the next step needs. -/
theorem Due.of_move {s : Client} {step : SetupStep}
    (hMove : Move s name stage sent b' (.building id step))
    (hPending : stage = .entering id → s.books.stage id = some .pending →
      s.books.held id = none ∧ requested name history = [])
    (hBuilt : ∀ step, stage = .building id step → Due name s.books id history step)
    (hRequests : requests last = sent)
    (hMembers : ∀ round, step = .collecting round →
      round.calls.map Call.place = List.range s.cluster.members.size →
      sent = List.replicate s.cluster.members.size (.fetchMetadata [name]) →
      AsksMembers name last) :
    Due name b' id (history ++ [last]) step := by
  have hSilent : sent = [] → (requests last).filter (Request.concerns name) = [] := by
    rintro rfl
    rw [hRequests]
    rfl
  cases hMove with
  | wait => exact (hBuilt _ rfl).concat rfl (hSilent rfl)
  | @enter _ f hFace hSetup =>
      obtain ⟨hVacant, hNone⟩ := hPending rfl (by rw [Books.stage, hFace, Option.map_some, hSetup])
      exact .of_enter hFace hVacant ((requested_of_silent history (hSilent rfl)).trans hNone)
  | request =>
      obtain ⟨hTracked, hVacant, hNone⟩ := hBuilt .requesting rfl
      refine ⟨hTracked, hVacant, ?_⟩
      rw [requested_concat, hRequests, hNone]
      simp [Request.concerns]
  | grant hFace =>
      obtain ⟨hTracked, -, hOne⟩ := hBuilt (.awaiting _ _) rfl
      exact .of_grant hFace hTracked ((requested_of_silent history (hSilent rfl)).trans hOne)
  | refuse =>
      obtain ⟨hTracked, hVacant, hOne⟩ := hBuilt (.awaiting _ _) rfl
      exact .of_refusal hTracked hVacant ((requested_of_silent history (hSilent rfl)).trans hOne)
  | confuse =>
      obtain ⟨hTracked, hVacant, hOne⟩ := hBuilt (.awaiting _ _) rfl
      exact .of_refusal (b := s.books.enroll name) hTracked hVacant
        ((requested_of_silent history (hSilent rfl)).trans hOne)
  | @seed _ _ round hPlaces =>
      obtain ⟨hTracked, hNotLegacy, shape, hOne⟩ := hBuilt (.seeding _) rfl
      exact ⟨hTracked, hNotLegacy, shape, history, last, [], rfl, hOne,
        hMembers round rfl hPlaces rfl, rfl⟩
  | @collect _ round round' =>
      have hDue : Due name s.books id history (.collecting round') :=
        hBuilt (.collecting round) rfl
      exact hDue.concat rfl (hSilent rfl)
  | @collected _ round =>
      have hDue : Due name s.books id history .starting := hBuilt (.collecting round) rfl
      exact hDue.concat rfl (hSilent rfl)
  | staffed | hire => exact (hBuilt .starting rfl).finishing.concat rfl (hSilent rfl)

/-- A step of a visit to the cache of a name, which no fault stops. -/
theorem Counted.move (h : Counted name t.client.books history visits)
    (hSound : Sound configs t.client.books visits) (hSound' : Sound configs b' visits')
    (hVisit : visits i = ⟨name, stage⟩) (hVisit' : visits' i = ⟨name, stage'⟩)
    (hOthers : ∀ j, j ≠ i → visits' j = visits j)
    (hMove : Move t.client name stage sent b' stage') (hRequests : requests last = sent)
    (hMembers : ∀ id round, stage' = .building id (.collecting round) →
      round.calls.map Call.place = List.range t.client.cluster.members.size →
      sent = List.replicate t.client.cluster.members.size (.fetchMetadata [name]) →
      AsksMembers name last)
    (hUnharmed : ∀ fault, stage' ≠ .aborted fault) :
    Counted name b' (history ++ [last]) visits' := by
  have hRest : sent = [] → stage'.builds = none →
      Counted name t.client.books (history ++ [last]) visits' := fun hSent hBuilds =>
    h.rest hSound (hRequests.trans hSent) hOthers (by rw [hVisit']; exact hBuilds)
  cases stage' with
  | building id step =>
      -- A setup goes on with one step after the other.
      refine Sound.counted_of_building hSound' hVisit' (.of_move hMove ?_ ?_ hRequests ?_)
      · rintro rfl
        have hFits := hSound.fits i
        rw [hVisit] at hFits
        exact h.pending id hFits
      · rintro step rfl
        exact h.built i id step hVisit
      · rintro round rfl
        exact hMembers id round rfl
  | asking =>
      cases hMove
      exact hRest rfl rfl
  | entering id =>
      cases hMove with
      | wait | find => exact hRest rfl rfl
      | create hConfig hEntry => exact h.create hSound' hEntry rfl hRequests
  | handing id =>
      cases hMove with
      | wait | pass => exact hRest rfl rfl
      | finish => exact .finish hSound' hVisit' (h.built i id .finishing hVisit) hRequests
  | served id => cases hMove <;> exact hRest rfl rfl
  | declined => cases hMove <;> exact hRest rfl rfl
  | aborted fault => exact absurd rfl (hUnharmed fault)

/-- A step of a visit to the cache of another name. -/
theorem Counted.elsewhere (h : Counted name t.client.books history visits)
    (hSound : Sound configs t.client.books visits) (hName : (visits i).name ≠ name)
    (hMove : Move t.client (visits i).name (visits i).stage sent b' stage)
    (hRequests : requests last = sent) :
    Counted name b' (history ++ [last])
      (Function.update visits i ⟨(visits i).name, stage⟩) := by
  refine h.keep (hMove.entry_of_ne hName.symm) (fun id hFound => hMove.face_of_ne ?_ ?_) ?_ ?_
  · -- Two names do not share a cache.
    intro hCache
    have hTitle := hSound.title hCache
    rw [hSound.filed.named name id hFound] at hTitle
    exact hName (Option.some.inj hTitle).symm
  · exact Nat.ne_of_lt (hSound.filed.entry_lt hFound)
  · rw [hRequests]
    exact hMove.silent hName.symm
  · intro j id step hBuilds
    rw [Function.update_apply] at hBuilds
    split at hBuilds
    · exact absurd (congrArg Visit.name hBuilds) hName
    · exact ⟨(hSound.of_building hBuilds).1, h.built j id step hBuilds⟩

end Moving

section Runs

variable {t t' : Traffic} {configs : ConfigCatalog} {visits visits' : Nat → Visit}
  {name : String} {history : List (Traffic × Hazard)} {hazard : Hazard}

/-- Nobody who asked for the cache of a name was stopped by a fault. -/
def Unharmed (name : String) (visits : Nat → Visit) : Prop :=
  ∀ i fault, visits i ≠ ⟨name, .aborted fault⟩

theorem Counted.happens (h : Counted name t.client.books history visits)
    (hVisited : t.Visited configs visits)
    (hHappens : t.Happens visits hazard (t.meet hazard) visits')
    (hUnharmed : Unharmed name visits') :
    Counted name (t.meet hazard).client.books (history ++ [(t, hazard)]) visits' := by
  have hSound' := (hHappens.visited hVisited).sound
  have hBuilt : ∀ i id step, visits i = ⟨name, .building id step⟩ →
      t.client.books.entry name = some id ∧ Due name t.client.books id history step :=
    fun i id step hBuilds => ⟨(hVisited.sound.of_building hBuilds).1, h.built i id step hBuilds⟩
  generalize hNow : t.meet hazard = t' at hHappens hSound' ⊢
  cases hHappens with
  | beside hIdle hCallers hBeside hConfigs =>
      have hSilent : requests (t, hazard) = [] := by
        cases hazard with
        | breakDown on => rfl
        | call call =>
            cases call with
            | advance i =>
                have hSame : t.advance i = t := hNow.trans (hIdle i rfl)
                simp [requests, hSame]
            | _ => rfl
      exact h.keep (by rw [hBeside.entry]) (fun _ _ => by rw [hBeside.face]) (by rw [hSilent]; rfl)
        hBuilt
  | begin other =>
      refine h.keep rfl (fun _ _ => rfl) rfl fun i id step hBuilds => ?_
      rw [Function.update_apply] at hBuilds
      split at hBuilds
      · cases hBuilds
      · exact hBuilt i id step hBuilds
  | @move i _ caller sent stage a hCaller hProceeds hFollows hCallers =>
      obtain ⟨hLess, -⟩ := List.getElem?_eq_some_iff.mp hCaller
      have hStep : t.advance i = t' := hNow
      have hOthers : ∀ j, j ≠ i → Function.update visits i ⟨(visits i).name, stage⟩ j = visits j :=
        fun j hOther => Function.update_of_ne hOther _ _
      have hSelf := Function.update_self i (⟨(visits i).name, stage⟩ : Visit) visits
      have hRequests : requests (t, .call (.advance i)) = sent := by
        refine requests_of_log ?_
        rw [hStep]
        exact hProceeds.log
      by_cases hName : (visits i).name = name
      · subst hName
        refine h.move hVisited.sound hSound' rfl hSelf hOthers hProceeds.move hRequests ?_ ?_
        · rintro id round rfl hPlaces hSent
          refine ⟨hRequests.trans hSent, i, { caller with activity := a }, id, round, _, rfl, ?_,
            hFollows.todo, hPlaces⟩
          rw [hStep, hCallers]
          exact List.getElem?_set_self hLess
        · rintro fault rfl
          exact hUnharmed i fault hSelf
      · exact h.elsewhere hVisited.sound hName hProceeds.move hRequests

/-- What is asked for the cache of a name counts all along, as long as no fault stops its setup. -/
theorem counted_of_run (configs : ConfigCatalog) (coherence : CoherenceConfig) (cluster : Cluster)
    (name : String) (hazards : List Hazard)
    (hAsks : ∀ operation, .call (.begin operation) ∈ hazards →
      ∃ name, operation = .getOrCreate name) :
    ∃ visits, (meetAll (.start configs coherence cluster) hazards).Visited configs visits ∧
      (Unharmed name visits →
        Counted name (meetAll (.start configs coherence cluster) hazards).client.books
          (trail (.start configs coherence cluster) hazards) visits) := by
  refine visited_of_run configs coherence cluster name
    (P := fun t history visits => Unharmed name visits → Counted name t.client.books history visits)
    (fun _ => ⟨fun _ => rfl, fun id hEntry => ?_, fun i id step hBuilds => ?_, fun id hEntry => ?_⟩)
    hazards (fun t history visits hazard visits' _ hVisited h hHappens hUnharmed => ?_) hAsks
  · simp [start, Client.books, Client.create] at hEntry
  · cases hBuilds
  · simp [start, Client.books, Client.create] at hEntry
  · refine (h fun i fault hAborted => ?_).happens hVisited hHappens hUnharmed
    rw [← hHappens.aborted hVisited (congrArg Visit.stage hAborted)] at hAborted
    exact hUnharmed i fault hAborted

section Results

variable {t : Traffic} {configs : ConfigCatalog} {visits : Nat → Visit} {caller : Caller}
  {name : String}

theorem Visited.unharmed (h : t.Visited configs visits)
    (hUnharmed : ∀ caller ∈ t.callers, caller.operation = .getOrCreate name → ¬caller.Aborted) :
    Unharmed name visits := by
  intro i fault hAborted
  obtain ⟨caller, hCaller, hOperation, hStopped⟩ :=
    h.caller_of_aborted (congrArg Visit.stage hAborted)
  rw [hAborted] at hOperation
  exact hUnharmed caller (List.mem_of_getElem? hCaller) hOperation hStopped

/-- Nobody sets up a cache that is set up. -/
theorem Visited.not_building (h : t.Visited configs visits) {id : CacheId}
    (hFinished : t.client.books.stage id = some .finished) (hCaller : caller ∈ t.callers) :
    .finishSetup id ∉ caller.activity.todo := by
  obtain ⟨i, hPlace⟩ := List.mem_iff_getElem?.mp hCaller
  have hFits := h.sound.fits i
  rw [(h.asks i caller hPlace).2.todo]
  generalize visits i = visit at hFits ⊢
  obtain ⟨name, stage⟩ := visit
  intro hm
  cases stage with
  | building id' step =>
      have hSame : id = id' := by
        cases step <;> simpa [Stage.actions, SetupStep.actions] using hm
      cases hFinished.symm.trans (hSame ▸ hFits.2)
  | _ => simp [Stage.actions] at hm

end Results

end Runs

end Traffic

/-- However many callers ask for caches at a time, and however their steps interleave: once one of
them has the cache of a name, that is set up, all the others that are through have the same one,
and for its setup the cluster was asked for one listener, and then, unless that was granted and is
of the legacy kind, for one report of each member. A cache without events asks for nothing. -/
theorem construct_once (configs : ConfigCatalog) (coherence : CoherenceConfig) (cluster : Cluster)
    (hazards : List Traffic.Hazard)
    (hAsks : ∀ operation, .call (.begin operation) ∈ hazards →
      ∃ name, operation = .getOrCreate name)
    {name : String} {config : CacheConfig} (hConfig : configs.find? name = some config)
    (hUnharmed : ∀ caller ∈ (Traffic.meetAll (.start configs coherence cluster) hazards).callers,
      caller.operation = .getOrCreate name → ¬caller.Aborted)
    (hServed : ∃ caller ∈ (Traffic.meetAll (.start configs coherence cluster) hazards).callers,
      caller.operation = .getOrCreate name ∧ caller.activity.isOver) :
    let t := Traffic.meetAll (.start configs coherence cluster) hazards
    ∃ id cache, t.client.directory[name]? = some id ∧ t.client.caches[id]? = some cache ∧
      (∀ caller ∈ t.callers, caller.operation = .getOrCreate name → caller.activity.isOver →
        caller.activity.outcome = .handle (some id)) ∧
      cache.setup = .finished ∧ (∀ caller ∈ t.callers, .finishSetup id ∉ caller.activity.todo) ∧
      Traffic.AskedOnce name config.invalidateOnChange cache.mode
        (Traffic.trail (.start configs coherence cluster) hazards) := by
  obtain ⟨visits, hVisited, hCounted⟩ :=
    Traffic.counted_of_run configs coherence cluster name hazards hAsks
  have hCounted := hCounted (hVisited.unharmed hUnharmed)
  obtain ⟨caller, hCaller, hOperation, hOver⟩ := hServed
  obtain ⟨id, hEntry, hFinished, -⟩ :=
    hVisited.served hConfig hCaller hOperation hOver (hUnharmed caller hCaller hOperation)
  obtain ⟨cache, hKnown, hSetup, hMode⟩ := Client.cache_of_stage hFinished
  refine ⟨id, cache, hEntry, hKnown, fun other hOther hOperation' hOver' => ?_, hSetup,
    fun other => hVisited.not_building hFinished, ?_⟩
  · obtain ⟨id', hEntry', -, hOutcome⟩ := hVisited.served hConfig hOther hOperation' hOver'
      (hUnharmed other hOther hOperation')
    cases hEntry.symm.trans hEntry'
    exact hOutcome
  · have hAsked := hCounted.finished id hEntry hFinished
    rw [hVisited.sound.tracks name id config hEntry hConfig] at hAsked
    rwa [hMode] at hAsked

/-- Two callers ask for one cache of a cluster of two members, and take turns. -/
def Traffic.openedByTwo : List Traffic.Hazard :=
  let members := #[Member.create (Cluster.localAddress 0), Member.create (Cluster.localAddress 1)]
  .call (.change ⟨members, ⟨4, 2, 0⟩, false, none⟩) ::
    .call (.begin (.getOrCreate "orders")) :: .call (.begin (.getOrCreate "orders")) ::
    (List.replicate 9 [.call (.advance 0), .call (.advance 1)]).flatten

/-- The caller that comes second waits, and the cluster is asked once. -/
theorem construct_once_for_two :
    let start := Traffic.start (.ofList [.ofName "orders"]) .default (.ofSize 2)
    let t := start.meetAll Traffic.openedByTwo
    (t.callers.map fun caller => caller.activity.isOver) = [true, true] ∧
      Traffic.requested "orders" (start.trail Traffic.openedByTwo) =
        [.addListener "orders" .repairable true, .fetchMetadata ["orders"],
          .fetchMetadata ["orders"]] ∧
      ∃ id cache, t.client.directory["orders"]? = some id ∧ t.client.caches[id]? = some cache ∧
        (∀ caller ∈ t.callers, caller.operation = .getOrCreate "orders" → caller.activity.isOver →
          caller.activity.outcome = .handle (some id)) ∧
        cache.setup = .finished ∧ (∀ caller ∈ t.callers, .finishSetup id ∉ caller.activity.todo) ∧
        Traffic.AskedOnce "orders" true cache.mode (start.trail Traffic.openedByTwo) := by
  refine ⟨by decide, by decide, ?_⟩
  have hAsks : ∀ operation, .call (.begin operation) ∈ Traffic.openedByTwo →
      ∃ name, operation = .getOrCreate name := by
    intro operation hm
    refine ⟨"orders", ?_⟩
    simpa [Traffic.openedByTwo] using hm
  have hConfig : (ConfigCatalog.ofList [.ofName "orders"]).find? "orders" =
      some (.ofName "orders") := by decide
  exact construct_once _ _ _ Traffic.openedByTwo hAsks hConfig (by decide) (by decide)

end NearCache
