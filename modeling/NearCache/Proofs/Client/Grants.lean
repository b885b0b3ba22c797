import NearCache.Proofs.Client.Opening

/-!
Listeners that the cluster grants to attempts to open one cache, any of which a fault may stop. What
was granted stays registered and bound to the cache, whatever becomes of the attempt, but the cache
remembers the last of them only.
-/

namespace NearCache

namespace Traffic

/-- The registration that a caller is granted in a step. -/
def granted? : Traffic × Hazard → Option (Nat × RegistrationId)
  | (t, .call (.advance i)) =>
    let next := t.client.cluster.nextRegistration
    if (t.advance i).client.cluster.nextRegistration = next then none
    else some (i, Cluster.registrationText next)
  | _ => none

/-- The registrations that callers were granted, in order. -/
def grants (history : List (Traffic × Hazard)) : List (Nat × RegistrationId) :=
  history.filterMap granted?

end Traffic

/-- What a step of a visit does to listeners: nothing, or one is granted to its cache. -/
inductive Move.Listens (s : Client) (stage : Stage) (b' : Books) (stage' : Stage) : Prop
  | same (hNext : b'.nextRegistration = s.books.nextRegistration)
      (hRegistered : b'.registered = s.books.registered) (hBound : b'.bound = s.books.bound)
      (hHeld : ∀ id, b'.held id = s.books.held id)
  | grant (id : CacheId) (shape : EventShape) (due : Nat) (f : Face) (limit : Duration)
      (hStage : stage = .building id (.awaiting shape due))
      (hStage' : stage' = .building id (.afterGrant limit shape))
      (hFace : s.books.face id = some f) (hBooks : b' = s.books.install id f shape)

section Moves

variable {s : Client} {name : String} {stage stage' : Stage} {sent : List Request} {b b' : Books}
  {id : CacheId} {rs : List RegistrationId}

theorem Move.listens (h : Move s name stage sent b' stage') (hFiled : Filed s.books)
    (hPlain : s.books.faults.confuseAdd = false) : Move.Listens s stage b' stage' := by
  have hChange : ∀ {id : CacheId} {change : Face → Face},
      (∀ f, (change f).subscription = f.subscription) →
      Move.Listens s stage (s.books.changeFace id change) stage' :=
    fun hSame => .same rfl rfl rfl fun _ => s.books.held_changeFace_of_same _ _ hSame
  cases h with
  | create hConfig hEntry =>
      exact .same rfl rfl rfl (hFiled.view_add (·.bind Face.subscription) rfl)
  | enter => exact hChange fun _ => rfl
  | @grant id shape due f limit hFace => exact .grant id shape due f limit rfl rfl hFace rfl
  | refuse => exact hChange fun _ => rfl
  | confuse hConfused => cases hPlain.symm.trans hConfused
  | finish => exact hChange fun _ => rfl
  | abort => exact hChange fun _ => rfl
  | _ => exact .same rfl rfl rfl fun _ => rfl

/-- The directory stays, or had nothing under the name before. -/
theorem Move.entry_or_none (h : Move s name stage sent b' stage') :
    b'.entry name = s.books.entry name ∨ s.books.entry name = none := by
  cases h with
  | create hConfig hEntry => exact .inr hEntry
  | _ => exact .inl rfl

theorem Move.faults (h : Move s name stage sent b' stage') : b'.faults = s.books.faults := by
  cases h <;> rfl

end Moves

/-- The listeners that were granted for the cache of a name are registered and bound to it, and it
holds the last of them. There are no others. -/
structure Tallied (name : String) (b : Books) (rs : List RegistrationId) : Prop where
  registered : ∀ r, b.registered r = if r ∈ rs then some name else none
  bound : ∀ r, b.bound r = if r ∈ rs then b.entry name else none
  held : ∀ id, (b.held id).map Subscription.registration =
    if b.entry name = some id then rs.getLast? else none
  absent : b.entry name = none → rs = []
  issued : ∀ r ∈ rs, b.Issued r
  nodup : rs.Nodup

section Listeners

variable {s : Client} {name : String} {stage stage' : Stage} {sent : List Request} {b b' : Books}
  {id : CacheId} {rs : List RegistrationId}

/-- Listeners that are not touched stay where the cache stays, or none was granted for it before. -/
theorem Tallied.keep (h : Tallied name b rs)
    (hEntry : b'.entry name = b.entry name ∨ b.entry name = none)
    (hNext : b'.nextRegistration = b.nextRegistration) (hRegistered : b'.registered = b.registered)
    (hBound : b'.bound = b.bound) (hHeld : ∀ id, b'.held id = b.held id) : Tallied name b' rs := by
  have hIssued : ∀ r ∈ rs, b'.Issued r := fun r hm => by
    obtain ⟨k, hLess, hText⟩ := h.issued r hm
    exact ⟨k, by rwa [hNext], hText⟩
  rcases hEntry with hSame | hNone
  · refine ⟨fun r => ?_, fun r => ?_, fun id => ?_, fun hNone => ?_, hIssued, h.nodup⟩
    · rw [hRegistered, h.registered]
    · rw [hBound, h.bound, hSame]
    · rw [hHeld, h.held, hSame]
    · exact h.absent (hSame ▸ hNone)
  · obtain rfl := h.absent hNone
    refine ⟨fun r => ?_, fun r => ?_, fun id => ?_, fun _ => rfl, hIssued, h.nodup⟩
    · rw [hRegistered, h.registered]
    · rw [hBound, h.bound]
      rfl
    · rw [hHeld, h.held, hNone]
      simp

theorem Tallied.grant (h : Tallied name b rs) {f : Face} (hEntry : b.entry name = some id)
    (hFace : b.face id = some f) (hName : f.name = name) (shape : EventShape) :
    Tallied name (b.install id f shape) (rs ++ [Cluster.registrationText b.nextRegistration]) := by
  have hFresh : Cluster.registrationText b.nextRegistration ∉ rs :=
    fun hm => b.not_issued_next (h.issued _ hm)
  have hMem : ∀ r, r ∈ rs ++ [Cluster.registrationText b.nextRegistration] ↔
      r = Cluster.registrationText b.nextRegistration ∨ r ∈ rs := fun r => by
    rw [List.mem_append, List.mem_singleton, or_comm]
  have hEntry' : (b.install id f shape).entry name = some id := hEntry
  refine ⟨fun r => ?_, fun r => ?_, fun other => ?_, fun hNone => ?_, fun r hm => ?_, ?_⟩
  · simp only [Books.install, Books.granted, Function.update_apply, hMem, hName, h.registered]
    by_cases hNew : r = Cluster.registrationText b.nextRegistration
    · rw [if_pos hNew, if_pos (.inl hNew)]
    · simp only [hNew, false_or, if_false]
  · rw [hEntry']
    simp only [Books.install, Books.granted, Function.update_apply, hMem, h.bound, hEntry]
    by_cases hNew : r = Cluster.registrationText b.nextRegistration
    · rw [if_pos hNew, if_pos (.inl hNew)]
    · simp only [hNew, false_or, if_false]
  · have hHeld : (b.install id f shape).held other =
        if other = id then some (b.granted f.name shape) else b.held other :=
      b.view_changeFace_eq (·.bind Face.subscription) hFace other
    rw [hHeld, hEntry', List.getLast?_concat]
    by_cases hSame : other = id
    · subst hSame
      simp [Books.granted]
    · rw [if_neg hSame, if_neg (fun h => hSame (Option.some.inj h).symm), h.held, hEntry,
        if_neg (fun h => hSame (Option.some.inj h).symm)]
  · cases hNone.symm.trans hEntry'
  · rcases (hMem r).mp hm with rfl | hOld
    · exact ⟨_, Nat.lt_succ_self _, rfl⟩
    · obtain ⟨k, hLess, hText⟩ := h.issued r hOld
      exact ⟨k, Nat.lt_succ_of_lt hLess, hText⟩
  · rw [List.nodup_append_comm, List.singleton_append, List.nodup_cons]
    exact ⟨hFresh, h.nodup⟩

end Listeners

/-- The cluster has answered the request for a listener, or there is none. -/
def SetupStep.Answered : SetupStep → Prop
  | .requesting | .awaiting .. => False
  | .seeding _ | .collecting _ | .starting | .finishing => True

section Answers

variable {s : Client} {name : String} {stage stage' : Stage} {sent : List Request} {b b' : Books}
  {id : CacheId}

theorem SetupStep.answered_afterGrant (limit : Duration) (shape : EventShape) :
    (SetupStep.afterGrant limit shape).Answered := by
  cases shape <;> trivial

/-- A setup that the cluster has answered goes on, is over, or is stopped by a fault. -/
theorem Move.of_answered {step : SetupStep} (h : Move s name (.building id step) sent b' stage')
    (hAnswered : step.Answered) :
    (∃ step' : SetupStep, stage' = .building id step' ∧ step'.Answered) ∨ stage' = .handing id ∨
      ∃ fault, stage' = .aborted fault := by
  cases h with
  | wait => exact .inl ⟨step, rfl, hAnswered⟩
  | request => cases hAnswered
  | grant => cases hAnswered
  | refuse => cases hAnswered
  | confuse => cases hAnswered
  | finish => exact .inr (.inl rfl)
  | abort => exact .inr (.inr ⟨_, rfl⟩)
  | _ => exact .inl ⟨_, rfl, trivial⟩

/-- The mode of a cache that is changed, as far as it had one. -/
theorem Books.mode_changeFace {other : CacheId} {change : Face → Face}
    (hChange : ∀ f, f.mode ≠ .untracked → (change f).mode ≠ .untracked)
    (hMode : b.mode other ≠ .untracked) : (b.changeFace id change).mode other ≠ .untracked := by
  by_cases hSame : other = id
  · subst hSame
    cases hFace : b.face other with
    | none => simp [Books.mode, hFace] at hMode
    | some f =>
        rw [Books.mode, hFace] at hMode
        rw [Books.mode, b.face_changeFace hFace]
        exact hChange f hMode
  · rwa [Books.mode, b.view_changeFace (·.elim .untracked Face.mode) fun h => absurd h hSame]

theorem Face.mode_of_lapsed (f : Face) :
    ({ f with pushUnavailable := true } : Face).mode ≠ .untracked := by
  unfold Face.mode
  rcases f.subscription with _ | ⟨cacheName, registration, shape⟩
  · rintro ⟨⟩
  · cases shape <;> rintro ⟨⟩

theorem Face.mode_of_granted (f : Face) (subscription : Subscription) :
    ({ f with subscription := some subscription, pushUnavailable := false } : Face).mode ≠
      .untracked := by
  obtain ⟨cacheName, registration, shape⟩ := subscription
  cases shape <;> rintro ⟨⟩

theorem Move.mode_ne_untracked (h : Move s name stage sent b' stage') (hFiled : Filed s.books)
    (hMode : s.books.mode id ≠ .untracked) : b'.mode id ≠ .untracked := by
  cases h with
  | create =>
      rwa [Books.mode, hFiled.view_add (·.elim .untracked Face.mode) rfl]
  | enter => exact Books.mode_changeFace (fun f hBefore => hBefore) hMode
  | grant => exact Books.mode_changeFace (fun f _ => f.mode_of_granted _) hMode
  | refuse => exact Books.mode_changeFace (fun f _ => f.mode_of_lapsed) hMode
  | confuse => exact Books.mode_changeFace (fun f _ => f.mode_of_lapsed) hMode
  | finish => exact Books.mode_changeFace (fun f hBefore => hBefore) hMode
  | abort => exact Books.mode_changeFace (fun f hBefore => hBefore) hMode
  | _ => exact hMode

/-- Once the cluster has answered, a cache that wants events has a mode. -/
theorem Move.mode_of_answered {step : SetupStep}
    (h : Move s name stage sent b' (.building id step)) (hAnswered : step.Answered)
    (hTracks : s.books.tracks id) :
    (∃ before : SetupStep, stage = .building id before ∧ before.Answered) ∨
      b'.mode id ≠ .untracked := by
  cases hFace : s.books.face id with
  | none => simp [Books.tracks, hFace] at hTracks
  | some f =>
      have hTracked : f.invalidates = true := by simpa [Books.tracks, hFace] using hTracks
      have hChanged : ∀ {change : Face → Face}, (change f).mode ≠ .untracked →
          (s.books.changeFace id change).mode id ≠ .untracked := fun hMode => by
        rwa [Books.mode, s.books.face_changeFace hFace]
      cases h with
      | wait => exact .inl ⟨step, rfl, hAnswered⟩
      | enter hFace' =>
          cases hFace.symm.trans hFace'
          rw [if_pos hTracked] at hAnswered
          cases hAnswered
      | request => cases hAnswered
      | grant => exact .inr (hChanged (f.mode_of_granted _))
      | refuse => exact .inr (hChanged f.mode_of_lapsed)
      | confuse => exact .inr (hChanged f.mode_of_lapsed)
      | _ => exact .inl ⟨_, rfl, trivial⟩

/-- A setup ends with its last step. -/
theorem Move.of_finished (h : Move s name stage sent b' stage')
    (hFinished : b'.stage id = some .finished) :
    s.books.stage id = some .finished ∨ stage = .building id .finishing := by
  have hChanged : ∀ {other : CacheId} {change : Face → Face},
      ((s.books.changeFace other change).stage id = some .finished) →
      (∀ f, (change f).setup ≠ .finished) → s.books.stage id = some .finished := by
    intro other change hAfter hChange
    by_cases hSame : id = other
    · subst hSame
      cases hFace : s.books.face id with
      | none => simp [Books.stage, Books.changeFace, hFace] at hAfter
      | some f =>
          rw [Books.stage, s.books.face_changeFace hFace] at hAfter
          exact absurd (Option.some.inj hAfter) (hChange f)
    · rwa [Books.stage, s.books.view_changeFace (Option.map Face.setup) fun h => absurd h hSame]
        at hAfter
  have hSame : ∀ {b : Books} {other : CacheId} {change : Face → Face},
      (b.changeFace other change).stage id = some .finished → (∀ f, (change f).setup = f.setup) →
      b.stage id = some .finished := fun {b other _} hAfter hChange =>
    (b.stage_changeFace_of_same other id hChange).symm.trans hAfter
  cases h with
  | create =>
      by_cases hNew : id = s.books.nextCache
      · subst hNew
        simp [Books.stage, Books.add, Face.fresh] at hFinished
      · exact .inl ((congrArg (Option.map Face.setup) (Function.update_of_ne hNew _ _)).symm.trans
          hFinished)
  | enter => exact .inl (hChanged hFinished (by rintro f ⟨⟩))
  | grant => exact .inl (hSame hFinished fun _ => rfl)
  | refuse => exact .inl (hSame hFinished fun _ => rfl)
  | confuse => exact .inl (hSame (b := s.books.enroll name) hFinished fun _ => rfl)
  | @finish other =>
      by_cases hOther : id = other
      · exact .inr (hOther ▸ rfl)
      · rw [Books.stage, s.books.view_changeFace (Option.map Face.setup) fun h => absurd h hOther]
          at hFinished
        exact .inl hFinished
  | abort => exact .inl (hChanged hFinished (by rintro f ⟨⟩))
  | _ => exact .inl hFinished

end Answers

namespace Traffic

/-- Once the cluster has answered, a cache that wants events has a listener, or was refused one. -/
structure Heeded (b : Books) (visits : Nat → Visit) : Prop where
  built : ∀ i id step, (visits i).stage = .building id step → step.Answered → b.tracks id →
    b.mode id ≠ .untracked
  finished : ∀ id, b.stage id = some .finished → b.tracks id → b.mode id ≠ .untracked

section Steps

variable {t t' : Traffic} {configs : ConfigCatalog} {visits visits' : Nat → Visit}
  {hazard : Hazard} {name : String}

theorem Heeded.happens (h : Heeded t.client.books visits) (hVisited : t.Visited configs visits)
    (hHappens : t.Happens visits hazard t' visits') : Heeded t'.client.books visits' := by
  cases hHappens with
  | beside hIdle hCallers hBeside hConfigs =>
      refine ⟨fun i id step => ?_, fun id => ?_⟩
      · rw [Books.tracks, Books.mode, hBeside.face]
        exact h.built i id step
      · rw [Books.stage, Books.tracks, Books.mode, hBeside.face]
        exact h.finished id
  | begin other =>
      refine ⟨fun i id step hStage => ?_, h.finished⟩
      rw [Function.update_apply] at hStage
      split at hStage
      · cases hStage
      · exact h.built i id step hStage
  | @move i _ caller sent stage a hCaller hProceeds hFollows hCallers =>
      have hFiled := hVisited.sound.filed
      have hTouch := hVisited.touch hProceeds
      have hKeep : ∀ {id}, t.client.books.stage id ≠ none → t'.client.books.tracks id →
          t.client.books.tracks id := fun hKnown hTracks =>
        (hTouch.tracks_of_known hFiled hKnown).symm.trans hTracks
      have hRunning : ∀ {j id step}, (visits j).stage = .building id step →
          t.client.books.stage id = some .running := fun hStage =>
        (hVisited.sound.fits _).running (by rw [hStage]; rfl)
      refine ⟨fun j id step hStage hAnswered hTracks => ?_, fun id hFinished hTracks => ?_⟩
      · by_cases hSame : j = i
        · subst hSame
          rw [Function.update_self] at hStage
          have hKnown : t.client.books.stage id ≠ none := by
            rcases hTouch.enters (congrArg Stage.builds hStage) with hBuilds | hPending
            · simp [(hVisited.sound.fits j).running hBuilds]
            · simp [hPending]
          have hTracked := hKeep hKnown hTracks
          have hMove := hProceeds.move
          rw [show stage = .building id step from hStage] at hMove
          rcases hMove.mode_of_answered hAnswered hTracked with ⟨before, hBefore, hDone⟩ | hMode
          · exact hMove.mode_ne_untracked hFiled (h.built j id before hBefore hDone hTracked)
          · exact hMode
        · rw [Function.update_of_ne hSame] at hStage
          have hTracked := hKeep (by simp [hRunning hStage]) hTracks
          have hMode := h.built j id step hStage hAnswered hTracked
          exact hProceeds.move.mode_ne_untracked hFiled hMode
      · rcases hProceeds.move.of_finished hFinished with hBefore | hStage
        · exact hProceeds.move.mode_ne_untracked hFiled
            (h.finished id hBefore (hKeep (by simp [hBefore]) hTracks))
        · have hTracked := hKeep (by simp [hRunning hStage]) hTracks
          exact hProceeds.move.mode_ne_untracked hFiled
            (h.built i id .finishing hStage trivial hTracked)

/-- What has become of a caller that was granted a listener: a fault has stopped it, or it goes on
with the setup, or that is over. -/
inductive Tended (name : String) (b : Books) (v : Visit) : Prop
  | stopped {fault : Fault} (hStage : v.stage = .aborted fault)
  | built {id : CacheId} {step : SetupStep} (hStage : v.stage = .building id step)
      (hAnswered : step.Answered)
  | finished {id : CacheId} (hEntry : b.entry name = some id)
      (hFinished : b.stage id = some .finished)

theorem Tended.happens {j : Nat} (h : Tended name t.client.books (visits j))
    (hName : (visits j).name = name) (hVisited : t.Visited configs visits)
    (hHappens : t.Happens visits hazard t' visits') : Tended name t'.client.books (visits' j) := by
  cases h with
  | stopped hStage =>
      rw [hHappens.aborted hVisited hStage]
      exact .stopped hStage
  | @built id step hStage hAnswered =>
      cases hHappens with
      | beside => exact .built hStage hAnswered
      | begin other =>
          rw [Function.update_of_ne]
          · exact .built hStage hAnswered
          · rintro rfl
            have hAsking := hVisited.beyond _ (List.getElem?_eq_none (Nat.le_refl t.callers.length))
            cases hAsking.symm.trans hStage
      | @move i _ caller sent stage a hCaller hProceeds =>
          by_cases hSame : j = i
          · subst hSame
            have hFits := (hVisited.touch hProceeds).fits
            have hMove := hProceeds.move
            rw [hStage] at hMove
            rw [Function.update_self]
            rcases hMove.of_answered hAnswered with ⟨step', rfl, hNext⟩ | rfl | ⟨fault, rfl⟩
            · exact .built rfl hNext
            · exact .finished (hName ▸ hFits.1) hFits.2
            · exact .stopped rfl
          · rw [Function.update_of_ne hSame]
            exact .built hStage hAnswered
  | @finished id hEntry hFinished =>
      -- A caller that has the cache keeps it.
      have hHas : Visit.Fits ⟨name, .served id⟩ configs t.client.books := ⟨hEntry, hFinished⟩
      suffices hKeeps : Visit.Fits ⟨name, .served id⟩ configs t'.client.books from
        .finished hKeeps.1 hKeeps.2
      cases hHappens with
      | beside hIdle hCallers hBeside =>
          refine hHas.keep (fun id hFound => hBeside.entry ▸ hFound) fun id _ _ => ?_
          rw [Books.stage, hBeside.face]
          rfl
      | begin other => exact hHas
      | @move i _ caller sent stage a hCaller hProceeds =>
          exact (hVisited.touch hProceeds).fits_other hVisited.sound.filed
            (hVisited.sound.fits i) hHas (by rintro id ⟨⟩)

/-- All attempts that were granted a listener, but for the last, have been stopped by a fault. -/
structure Attempted (t : Traffic) (name : String) (granted : List (Nat × RegistrationId))
    (visits : Nat → Visit) : Prop where
  named : ∀ i, (visits i).name = name
  plain : t.client.books.faults.confuseAdd = false
  kept : t.client.books.faults.loseRemove = false
  tallied : Tallied name t.client.books (granted.map Prod.snd)
  heeded : Heeded t.client.books visits
  once : (granted.map Prod.fst).Nodup
  stopped : ∀ g ∈ granted.dropLast, ∃ fault, (visits g.1).stage = .aborted fault
  last : ∀ g, granted.getLast? = some g → Tended name t.client.books (visits g.1)

theorem grants_concat (history : List (Traffic × Hazard)) (step : Traffic × Hazard) :
    grants (history ++ [step]) = grants history ++ (granted? step).toList := by
  rw [grants, List.filterMap_append, ← grants]
  cases hStep : granted? step <;> simp [hStep]

theorem granted?_of_same
    (hNext : (t.meet hazard).client.books.nextRegistration = t.client.books.nextRegistration) :
    granted? (t, hazard) = none := by
  cases hazard with
  | breakDown on => rfl
  | call call =>
      cases call with
      | advance i => exact if_pos hNext
      | _ => rfl

theorem granted?_of_next {i : Nat}
    (hNext : (t.advance i).client.books.nextRegistration = t.client.books.nextRegistration + 1) :
    granted? (t, .call (.advance i)) =
      some (i, Cluster.registrationText t.client.books.nextRegistration) := by
  refine if_neg fun hSame => ?_
  exact Nat.succ_ne_self _ (hNext.symm.trans hSame)

/-- A step in which no listener is granted. -/
theorem Attempted.keep {granted : List (Nat × RegistrationId)} (h : t.Attempted name granted visits)
    (hVisited : t.Visited configs visits) (hHappens : t.Happens visits hazard t' visits')
    (hNamed : ∀ i, (visits' i).name = name)
    (hFaults : t'.client.books.faults.confuseAdd = t.client.books.faults.confuseAdd ∧
      t'.client.books.faults.loseRemove = t.client.books.faults.loseRemove)
    (hTallied : Tallied name t'.client.books (granted.map Prod.snd)) :
    t'.Attempted name granted visits' := by
  refine ⟨hNamed, hFaults.1.trans h.plain, hFaults.2.trans h.kept, hTallied,
    h.heeded.happens hVisited hHappens, h.once, fun g hm => ?_, fun g hLast => ?_⟩
  · obtain ⟨fault, hStage⟩ := h.stopped g hm
    exact ⟨fault, by rw [hHappens.aborted hVisited hStage, hStage]⟩
  · exact (h.last g hLast).happens (h.named g.1) hVisited hHappens

/-- Whoever waits for the answer of the cluster has the setup to itself, since all that were granted
a listener before have been stopped. -/
theorem Attempted.alone {granted : List (Nat × RegistrationId)}
    (h : t.Attempted name granted visits)
    (hVisited : t.Visited configs visits) {i : Nat} {id : CacheId} {shape : EventShape} {due : Nat}
    (hStage : (visits i).stage = .building id (.awaiting shape due)) :
    ∀ g ∈ granted, ∃ fault, (visits g.1).stage = .aborted fault := by
  have hFits := hVisited.sound.fits i
  rw [Visit.Fits, hStage, h.named i] at hFits
  intro g hm
  rcases List.eq_nil_or_concat' granted with rfl | ⟨before, last, rfl⟩
  · cases hm
  rcases List.mem_append.mp hm with hBefore | hLast
  · exact h.stopped g (by rwa [List.dropLast_concat])
  · obtain rfl := List.mem_singleton.mp hLast
    cases h.last g List.getLast?_concat with
    | stopped hStopped => exact ⟨_, hStopped⟩
    | @built id' step hBuilt hAnswered =>
        have hCache : (visits g.1).stage.cache? = some id' := by
          rw [hBuilt]
          rfl
        have hOther := (hVisited.sound.fits g.1).entry hCache
        rw [h.named g.1, hFits.1] at hOther
        obtain rfl := Option.some.inj hOther
        have hSame := hVisited.sound.alone g.1 i id (by rw [hBuilt]; rfl) (by rw [hStage]; rfl)
        rw [hSame, hStage] at hBuilt
        cases hBuilt
        cases hAnswered
    | finished hEntry hFinished =>
        cases hEntry.symm.trans hFits.1
        cases hFinished.symm.trans hFits.2

/-- A step in which a listener is granted. -/
theorem Attempted.grant {granted : List (Nat × RegistrationId)}
    (h : t.Attempted name granted visits)
    (hVisited : t.Visited configs visits) (hHappens : t.Happens visits hazard t' visits')
    (hNamed : ∀ i, (visits' i).name = name)
    (hFaults : t'.client.books.faults = t.client.books.faults) {i : Nat} {id : CacheId}
    {shape : EventShape} {due : Nat} {limit : Duration} {f : Face}
    (hStage : (visits i).stage = .building id (.awaiting shape due))
    (hStage' : (visits' i).stage = .building id (.afterGrant limit shape))
    (hFace : t.client.books.face id = some f)
    (hBooks : t'.client.books = t.client.books.install id f shape) :
    t'.Attempted name
      (granted ++ [(i, Cluster.registrationText t.client.books.nextRegistration)]) visits' := by
  have hCache : (visits i).stage.cache? = some id := by
    rw [hStage]
    rfl
  have hEntry := (hVisited.sound.fits i).entry hCache
  have hTitle := hVisited.sound.title hCache
  rw [h.named i] at hEntry hTitle
  rw [Books.title, hFace] at hTitle
  have hStopped := h.alone hVisited hStage
  refine ⟨hNamed, by rw [hFaults]; exact h.plain, by rw [hFaults]; exact h.kept, ?_,
    h.heeded.happens hVisited hHappens, ?_, fun g hm => ?_, fun g hLast => ?_⟩
  · rw [hBooks, List.map_append]
    exact h.tallied.grant hEntry hFace (Option.some.inj hTitle) shape
  · rw [List.map_append, List.nodup_append_comm, List.map_singleton, List.singleton_append,
      List.nodup_cons]
    refine ⟨fun hm => ?_, h.once⟩
    obtain ⟨g, hGranted, hSame⟩ := List.mem_map.mp hm
    obtain ⟨fault, hAborted⟩ := hStopped g hGranted
    rw [hSame, hStage] at hAborted
    cases hAborted
  · rw [List.dropLast_concat] at hm
    obtain ⟨fault, hAborted⟩ := hStopped g hm
    exact ⟨fault, by rw [hHappens.aborted hVisited hAborted, hAborted]⟩
  · cases List.getLast?_concat.symm.trans hLast
    exact .built hStage' (SetupStep.answered_afterGrant limit shape)

theorem Attempted.happens {history : List (Traffic × Hazard)}
    (h : t.Attempted name (grants history) visits) (hVisited : t.Visited configs visits)
    (hHappens : t.Happens visits hazard (t.meet hazard) visits')
    (hAsks : ∀ operation, hazard = .call (.begin operation) → operation = .getOrCreate name) :
    (t.meet hazard).Attempted name (grants (history ++ [(t, hazard)])) visits' := by
  have hNothing : (t.meet hazard).client.books.nextRegistration = t.client.books.nextRegistration →
      grants (history ++ [(t, hazard)]) = grants history := fun hNext => by
    rw [grants_concat, granted?_of_same hNext]
    exact List.append_nil _
  have hGo := hHappens
  generalize hNow : t.meet hazard = t' at hHappens hNothing hGo ⊢
  cases hHappens with
  | beside hIdle hCallers hBeside =>
      rw [hNothing hBeside.issued]
      exact h.keep hVisited hGo h.named ⟨hBeside.confuses, hBeside.loses⟩
        (h.tallied.keep (.inl (by rw [hBeside.entry])) hBeside.issued hBeside.registered
          hBeside.bound fun id => by rw [Books.held, hBeside.face]; rfl)
  | begin other =>
      cases hAsks _ rfl
      rw [hNothing rfl]
      refine h.keep hVisited hGo (fun i => ?_) ⟨rfl, rfl⟩ h.tallied
      rw [Function.update_apply]
      split
      · rfl
      · exact h.named i
  | @move i _ caller sent stage a hCaller hProceeds hFollows hCallers =>
      have hMove := hProceeds.move
      have hFaults := hMove.faults
      have hNamed : ∀ j, (Function.update visits i ⟨(visits i).name, stage⟩ j).name = name := by
        intro j
        rw [Function.update_apply]
        split
        · exact h.named i
        · exact h.named j
      cases hMove.listens hVisited.sound.filed h.plain with
      | same hNext hRegistered hBound hHeld =>
          rw [hNothing hNext]
          exact h.keep hVisited hGo hNamed ⟨by rw [hFaults], by rw [hFaults]⟩
            (h.tallied.keep (h.named i ▸ hMove.entry_or_none) hNext hRegistered hBound hHeld)
      | grant id shape due f limit hStage hStage' hFace hBooks =>
          have hNext : (t.advance i).client.books.nextRegistration =
              t.client.books.nextRegistration + 1 := by
            rw [show t.advance i = t' from hNow, hBooks]
            rfl
          have hAfter : (Function.update visits i ⟨(visits i).name, stage⟩ i).stage =
              .building id (.afterGrant limit shape) := by
            rw [Function.update_self, hStage']
          rw [grants_concat, granted?_of_next hNext]
          exact h.grant hVisited hGo hNamed hFaults hStage hAfter hFace hBooks

end Steps

/-- What becomes of attempts to open one cache, on a cluster that has no listeners yet. -/
theorem attempted_of_run (configs : ConfigCatalog) (coherence : CoherenceConfig) {cluster : Cluster}
    (hRegistrations : cluster.registrations = ∅) (hBindings : cluster.bindings = ∅)
    (hPlain : cluster.faults.confuseAdd = false) (hKept : cluster.faults.loseRemove = false)
    {name : String} (hazards : List Hazard)
    (hAsks : ∀ operation, .call (.begin operation) ∈ hazards → operation = .getOrCreate name) :
    ∃ visits, (meetAll (.start configs coherence cluster) hazards).Visited configs visits ∧
      (meetAll (.start configs coherence cluster) hazards).Attempted name
        (grants (trail (.start configs coherence cluster) hazards)) visits := by
  refine visited_of_run configs coherence cluster name
    (P := fun t history visits => t.Attempted name (grants history) visits) ?_ hazards
    (fun t history visits hazard visits' hm hVisited h hHappens => ?_)
    fun operation hm => ⟨name, hAsks operation hm⟩
  · refine ⟨fun _ => rfl, hPlain, hKept, ?_, ⟨by rintro i id step ⟨⟩, fun id hFinished => ?_⟩,
      List.nodup_nil, by rintro g ⟨⟩, by rintro g ⟨⟩⟩
    · constructor <;> simp [grants, start, Client.books, Client.create, Books.held, hRegistrations,
        hBindings]
    · simp [start, Client.books, Client.create, Books.stage] at hFinished
  · exact h.happens hVisited hHappens fun operation hSame => hAsks operation (hSame ▸ hm)

end Traffic

end NearCache
