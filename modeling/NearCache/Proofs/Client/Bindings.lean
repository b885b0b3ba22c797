import NearCache.Proofs.Client.Listeners

/-!
What the bindings of a client are for. That a binding is for a subscription which its cache still
holds takes more than an orderly ledger: no two activities may set up or renew the listener of one
cache at a time, which takes renewals that leave the others undisturbed. The same holds for the mode
that a cache is left in.
-/

namespace NearCache

variable {b b' : Books} {p p' : Plan} {plans plans' : Nat → Plan} {i : Nat}

section Hands

variable {id : CacheId} {r r' : Role}

/-- A cache whose listener is renewed is in no other hands, unless they wait to tear it down. -/
theorem Owned.not_renewal (h : Owned b plans) (hUndisturbed : Undisturbed b plans) {j : Nat}
    (hRole : (plans i).role = some (.renewal, id)) (hRole' : (plans j).role = some (r', id))
    (hActive : r' ≠ .sealing) : r' = .renewal := by
  cases r' with
  | sealing => exact absurd rfl hActive
  | renewal => rfl
  | setup => cases (h.setup j id hRole').symm.trans (hUndisturbed.finished i id hRole)
  | teardown => exact absurd (hUndisturbed.listed i id hRole) (h.leaving j id _ hRole' (.inr rfl)).2

/-- No two activities have one cache in hand, unless one of them waits to tear it down. -/
theorem Owned.alone (h : Owned b plans) (hUndisturbed : Undisturbed b plans) {i j : Nat}
    (hRole : (plans i).role = some (r, id)) (hRole' : (plans j).role = some (r', id))
    (hActive : r ≠ .sealing) (hActive' : r' ≠ .sealing) : i = j := by
  by_cases hRenews : r = .renewal ∨ r' = .renewal
  · obtain ⟨rfl, rfl⟩ : r = .renewal ∧ r' = .renewal := by
      rcases hRenews with rfl | rfl
      · exact ⟨rfl, h.not_renewal hUndisturbed hRole hRole' hActive'⟩
      · exact ⟨h.not_renewal hUndisturbed hRole' hRole hActive, rfl⟩
    exact hUndisturbed.once i j id hRole hRole'
  · have hSetup := h.setup
    have hSetupOnce := h.setupOnce
    have hLeavingOnce := h.leavingOnce
    have hTorn := h.torn
    cases r <;> cases r' <;> grind

/-- A cache that an activity has in hand is past the beginning of its setup, unless the activity
waits to tear it down. -/
theorem Owned.begun (h : Owned b plans) (hUndisturbed : Undisturbed b plans)
    (hRole : (plans i).role = some (r, id)) (hActive : r ≠ .sealing) :
    b.stage id ≠ some .pending := by
  intro hPending
  cases r with
  | sealing => exact hActive rfl
  | setup => cases (h.setup i id hRole).symm.trans hPending
  | teardown => cases (h.torn i id hRole).symm.trans hPending
  | renewal => cases (hUndisturbed.finished i id hRole).symm.trans hPending

end Hands

theorem Errand.role_ne_sealing (errand : Errand) : errand.role ≠ .sealing := by
  cases errand <;> rintro ⟨⟩

theorem Errand.kept_ne_sealing (errand : Errand) (id other : CacheId) :
    errand.kept id ≠ some (.sealing, other) := by
  cases errand <;> rintro ⟨⟩

theorem Sequel.role_ne_sealing (sequel : Sequel) : sequel.role ≠ .sealing := by
  cases sequel <;> rintro ⟨⟩

theorem Phase.role_of_vacates {phase : Phase} {id : CacheId} (h : phase.vacates = some id) :
    ∃ r, r ≠ .sealing ∧ phase.role = some (r, id) := by
  cases phase <;> cases h
  case requesting errand => exact ⟨_, errand.role_ne_sealing, rfl⟩
  case awaiting errand => exact ⟨_, errand.role_ne_sealing, rfl⟩
  case removing sequel => exact ⟨_, sequel.role_ne_sealing, rfl⟩

theorem Phase.guards_of_role {phase : Phase} {id : CacheId} (h : phase.role = some (.sealing, id)) :
    phase.guards = some id := by
  cases phase <;>
    simp_all [Phase.role, Phase.guards, Errand.role_ne_sealing, Errand.kept_ne_sealing,
      Sequel.role_ne_sealing]

theorem Phase.role_of_seeks {phase : Phase} {id : CacheId} (h : phase.seeks = some id) :
    phase.role = some (.setup, id) ∨ phase.role = some (.renewal, id) := by
  cases phase
  case requesting errand | awaiting errand =>
    cases h
    cases errand
    · exact .inl rfl
    · exact .inr rfl
  case detaching sequel | removing sequel =>
    cases sequel <;> cases h
    exact .inr rfl
  all_goals cases h

/-- A cache that a listener is asked for is in the directory, or about to be torn down. -/
theorem Owned.guarded_of_seeks (h : Owned b plans) (hUndisturbed : Undisturbed b plans)
    {id : CacheId} (hSeeks : (plans i).phase.seeks = some id) :
    b.Lists id ∨ ∃ j, (plans j).phase.guards = some id := by
  rcases Phase.role_of_seeks hSeeks with hRole | hRole
  · have hRunning := h.setup i id hRole
    by_cases hListed : b.Lists id
    · exact .inl hListed
    · rcases h.dropped id (by simp [hRunning]) hListed with hFinished | ⟨j, hSealing⟩
      · cases hRunning.symm.trans hFinished
      · exact .inr ⟨j, Phase.guards_of_role hSealing⟩
  · exact .inl (hUndisturbed.listed i id hRole)

/-- What a turn does for the caches in the directory and those that are torn down. -/
structure Footing (b : Books) (p : Plan) (b' : Books) (p' : Plan) : Prop where
  kept : ∀ id, b.Lists id → b'.Lists id ∨ p'.phase.guards = some id
  new : ∀ id, b'.Lists id → b.Lists id ∨ (b.stage id = none ∧ b'.stage id = some .pending)
  opened : ∀ id, b.stage id = some .pending → b'.stage id = some .pending ∨
    (b.tracks id → p'.phase.vacates = some id) ∨ p.role = some (.setup, id) ∨
    p.role = some (.sealing, id)
  pending : ∀ id, b'.stage id = some .pending → b.stage id = some .pending ∨ b.stage id = none
  tracks : ∀ id, b.stage id ≠ none → b'.tracks id = b.tracks id

theorem Turn.footing (hFiled : Filed b) (h : Turn b p b' p') : Footing b p b' p' := by
  have hPassage := h.passage hFiled
  have hGuards : ∀ id, p'.role = some (.sealing, id) → p'.phase.guards = some id :=
    fun id => Phase.guards_of_role
  have hUnknown : b.stage b.nextCache = none := by
    rw [Books.stage, hFiled.unknown, Option.map_none]
  have hEnters : ∀ id, p.enters = some id → p'.role = some (.setup, id) → b.tracks id →
      p'.phase.vacates = some id := by
    cases h
    case enter name id f tail hFace hPending =>
      intro other _ hRole hTracks
      cases hTracked : f.invalidates with
      | true =>
          rw [hTracked] at hRole
          cases hRole
          rfl
      | false =>
          rw [hTracked] at hRole
          cases hRole
          simp [Books.tracks, hFace, hTracked] at hTracks
    all_goals
      rintro other hEntrance hRole -
      cases hEntrance <;> cases hRole
  constructor
  · cases hPassage <;> grind
  · cases hPassage <;> grind
  · cases hPassage <;> grind
  · cases hPassage <;> grind
  · intro id hKnown
    have hSame : ∀ {change : Face → Face} (other : CacheId),
        (∀ f, (change f).invalidates = f.invalidates) →
        (b.changeFace other change).tracks id = b.tracks id :=
      fun other hSame => b.view_changeFace (·.any Face.invalidates) fun _ => hSame
    cases h
    case create name invalidates tail hOpen hEntry =>
      have hOther : id ≠ b.nextCache := fun hSame => hKnown (hSame ▸ hUnknown)
      simp [Books.tracks, Books.add, Function.update_of_ne hOther]
    case enter | finish | sealPending | grant | refuse | detach | release =>
      exact hSame _ fun _ => rfl
    all_goals rfl

/-- What a binding is for, and how a cache without a subscription came to have none, when no two
activities set up or renew one listener at a time. -/
structure Heard (b : Books) (plans : Nat → Plan) : Prop where
  bound : ∀ r id, b.bound r = some id → ∃ name shape, b.held id = some ⟨name, r, shape⟩
  vacant : ∀ i id, (plans i).phase.vacates = some id → b.held id = none
  pending : ∀ id, b.stage id = some .pending → b.held id = none
  guarded : ∀ id, b.held id ≠ none → b.Lists id ∨ ∃ i, (plans i).phase.guards = some id
  sought : ∀ i id, (plans i).phase.seeks = some id → b.tracks id
  untracked : ∀ id, b.tracks id = false → b.held id = none ∧ b.lapsed id = false
  lapsed : ∀ id, b.held id ≠ none → b.lapsed id = false
  answered : ∀ id, b.Lists id → b.tracks id → b.mode id = .untracked →
    b.stage id = some .pending ∨ ∃ i, (plans i).phase.vacates = some id
  manned : b.closed = false → ∀ id, b.Lists id → b.Coherent id →
    b.running ≠ none ∨ ∃ i, (plans i).Starts

/-- Whether a cache wants events does not change. -/
theorem Footing.untracked (h : Footing b p b' p') (id : CacheId) (hTracks : b'.tracks id = false) :
    b.tracks id = false := by
  by_cases hKnown : b.stage id = none
  · have hFace : b.face id = none := Option.map_eq_none_iff.mp hKnown
    rw [Books.tracks, hFace]
    rfl
  · rwa [← h.tracks id hKnown]

section Modes

variable {id : CacheId}

/-- A cache that is known and not torn down stays untracked only while a listener is asked for. -/
theorem Exchange.blank (h : Exchange b p b' p') (hBlank : b'.mode id = .untracked)
    (hKnown : b.stage id ≠ none) (hStays : p.role ≠ some (.teardown, id)) :
    (b.mode id = .untracked ∨ p'.phase.vacates = some id) ∧
      (p.phase.vacates = some id → p'.phase.vacates = some id) := by
  rw [Books.mode_eq_untracked_iff] at hBlank ⊢
  cases h <;> grind

/-- A cache comes to take part in reconciliation only when a worker is about to be started. -/
theorem Exchange.coherent (h : Exchange b p b' p') (hCoherent : b'.Coherent id)
    (hLapsed : b.held id ≠ none → b.lapsed id = false) : b.Coherent id ∨ p'.Starts := by
  rw [Books.coherent_iff] at hCoherent ⊢
  cases h <;> grind [Books.granted]

end Modes

section Preservation

variable (h : Heard b plans)
include h

theorem Heard.bound_of_exchange (hExchange : Exchange b (plans i) b' p') :
    ∀ r id, b'.bound r = some id → ∃ name shape, b'.held id = some ⟨name, r, shape⟩ := by
  intro r id hBinds
  cases hExchange with
  | same hHeld _ _ hBound => exact hHeld id ▸ h.bound r id (hBound r ▸ hBinds)
  | grant new name shape _ _ _ hHeld _ _ hBound _ _ hVacates =>
      rw [hBound] at hBinds
      split at hBinds
      next hFresh =>
        cases hBinds
        exact ⟨name, shape, by rw [hHeld, if_pos rfl, hFresh]; rfl⟩
      next =>
        -- The cache held no subscription, so that nothing else is bound to it.
        obtain ⟨name', shape', hHolds⟩ := h.bound r id hBinds
        refine ⟨name', shape', (hHeld id).trans ((if_neg ?_).trans hHolds)⟩
        rintro rfl
        cases (h.vacant i id hVacates.1).symm.trans hHolds
  | refuse _ _ _ _ hHeld _ _ hBound => exact hHeld id ▸ h.bound r id (hBound r ▸ hBinds)
  | detach vacated taken hTaken hHeld _ _ hBound =>
      rw [hBound] at hBinds
      split at hBinds
      · cases hBinds
      next hOther =>
        obtain ⟨name, shape, hHolds⟩ := h.bound r id hBinds
        refine ⟨name, shape, (hHeld id).trans ((if_neg ?_).trans hHolds)⟩
        rintro rfl
        cases hTaken.symm.trans hHolds
        exact hOther rfl
  | remove _ hHeld _ _ hBound => exact hHeld id ▸ h.bound r id (hBound r ▸ hBinds)
  | release _ hHeld _ _ hBound => exact hHeld id ▸ h.bound r id (hBound r ▸ hBinds)

theorem Heard.lapsed_of_exchange (hExchange : Exchange b (plans i) b' p') :
    ∀ id, b'.held id ≠ none → b'.lapsed id = false := by
  have hLapsed := h.lapsed
  have hVacant := h.vacant
  cases hExchange <;> grind

theorem Heard.pending_of_exchange (hOwned : Owned b plans) (hUndisturbed : Undisturbed b plans)
    (hFooting : Footing b (plans i) b' p') (hExchange : Exchange b (plans i) b' p') :
    ∀ id, b'.stage id = some .pending → b'.held id = none := by
  have hPending := h.pending
  have hBefore := hFooting.pending
  have hUnknown : ∀ id, b.stage id = none → b.held id = none ∧ b.title id = none := by
    intro id hNone
    have hFace := Option.map_eq_none_iff.mp hNone
    simp [Books.held, Books.title, hFace]
  have hBegun : ∀ i id, (plans i).phase.vacates = some id → b.stage id ≠ some .pending := by
    intro i id hi
    obtain ⟨r, hActive, hRole⟩ := Phase.role_of_vacates hi
    exact hOwned.begun hUndisturbed hRole hActive
  cases hExchange <;> grind

theorem Heard.untracked_of_exchange (hFooting : Footing b (plans i) b' p')
    (hExchange : Exchange b (plans i) b' p') :
    ∀ id, b'.tracks id = false → b'.held id = none ∧ b'.lapsed id = false := by
  have hUntracked := h.untracked
  have hSought := h.sought
  have hTracks : ∀ id, b'.tracks id = false → b.tracks id = false := hFooting.untracked
  cases hExchange <;> grind

variable (hOthers : ∀ j, j ≠ i → plans' j = plans j)
include hOthers

theorem Heard.vacant_of_exchange (hOwned : Owned b plans) (hUndisturbed : Undisturbed b plans)
    (hExchange : Exchange b (plans i) b' (plans' i)) :
    ∀ j id, (plans' j).phase.vacates = some id → b'.held id = none := by
  have hVacant := h.vacant
  have hPending := h.pending
  have hAlone : ∀ i j id, (plans i).phase.vacates = some id → (plans j).phase.vacates = some id →
      i = j := by
    intro i j id hi hj
    obtain ⟨r, hActive, hRole⟩ := Phase.role_of_vacates hi
    obtain ⟨r', hActive', hRole'⟩ := Phase.role_of_vacates hj
    exact hOwned.alone hUndisturbed hRole hRole' hActive hActive'
  cases hExchange <;> grind

theorem Heard.guarded_of_exchange (hOwned : Owned b plans) (hUndisturbed : Undisturbed b plans)
    (hFooting : Footing b (plans i) b' (plans' i))
    (hExchange : Exchange b (plans i) b' (plans' i)) :
    ∀ id, b'.held id ≠ none → b'.Lists id ∨ ∃ j, (plans' j).phase.guards = some id := by
  have hStays : ∀ id, (b.Lists id ∨ ∃ j, (plans j).phase.guards = some id) →
      ((plans i).phase.guards = some id → (plans' i).phase.guards = some id) →
      b'.Lists id ∨ ∃ j, (plans' j).phase.guards = some id := by
    rintro id (hListed | ⟨j, hj⟩) hSelf
    · exact (hFooting.kept id hListed).imp_right fun hi => ⟨i, hi⟩
    · exact .inr ⟨j, kept_of_others (P := fun p => p.phase.guards = some id) hOthers hSelf hj⟩
  have hFree : ∀ id, (plans i).phase.guards = none →
      (plans i).phase.guards = some id → (plans' i).phase.guards = some id :=
    fun id hNone hi => by cases hNone.symm.trans hi
  intro id hHolds
  cases hExchange with
  | same hHeld _ _ _ _ _ _ _ _ hGuards =>
      rw [hHeld] at hHolds
      exact hStays id (h.guarded id hHolds) fun hi => (hGuards id hi).resolve_right hHolds
  | grant new name shape _ _ _ hHeld _ _ _ _ _ _ hSeeks hGuards =>
      rw [hHeld] at hHolds
      split at hHolds
      next hSame =>
        subst hSame
        exact hStays id (hOwned.guarded_of_seeks hUndisturbed hSeeks.1) (hFree id hGuards)
      next => exact hStays id (h.guarded id hHolds) (hFree id hGuards)
  | refuse _ _ _ _ hHeld _ _ _ _ _ _ _ hGuards =>
      rw [hHeld] at hHolds
      exact hStays id (h.guarded id hHolds) (hFree id hGuards)
  | detach vacated _ _ hHeld _ _ _ _ _ _ _ hGuards =>
      rw [hHeld] at hHolds
      split at hHolds
      · exact absurd rfl hHolds
      next hOther =>
        exact hStays id (h.guarded id hHolds) fun hi => absurd (hGuards id hi) hOther
  | remove _ hHeld _ _ _ _ _ _ _ _ hGuards =>
      rw [hHeld] at hHolds
      exact hStays id (h.guarded id hHolds) (hFree id hGuards)
  | release _ hHeld _ _ _ _ _ _ _ _ hGuards =>
      rw [hHeld] at hHolds
      exact hStays id (h.guarded id hHolds) (hFree id hGuards)

theorem Heard.sought_of_exchange (hFooting : Footing b (plans i) b' (plans' i))
    (hExchange : Exchange b (plans i) b' (plans' i)) :
    ∀ j id, (plans' j).phase.seeks = some id → b'.tracks id := by
  have hSought := h.sought
  have hTracks : ∀ id, b'.tracks id = false → b.tracks id = false := hFooting.untracked
  cases hExchange <;> grind

theorem Heard.answered_of_exchange (hOwned : Owned b plans)
    (hFooting : Footing b (plans i) b' (plans' i))
    (hExchange : Exchange b (plans i) b' (plans' i)) :
    ∀ id, b'.Lists id → b'.tracks id → b'.mode id = .untracked →
      b'.stage id = some .pending ∨ ∃ j, (plans' j).phase.vacates = some id := by
  intro id hListed hTracks hBlank
  rcases hFooting.new id hListed with hBefore | ⟨-, hPending⟩
  · have hKnown := hOwned.known id hBefore
    have hStays : ∀ r, r = .sealing ∨ r = .teardown → (plans i).role ≠ some (r, id) :=
      fun r hr hRole => (hOwned.leaving i id r hRole hr).2 hBefore
    obtain ⟨hBlank', hVacates⟩ := hExchange.blank hBlank hKnown (hStays _ (.inr rfl))
    rw [hFooting.tracks id hKnown] at hTracks
    rcases hBlank' with hBlank' | hNow
    · rcases h.answered id hBefore hTracks hBlank' with hPending | ⟨j, hj⟩
      · rcases hFooting.opened id hPending with hPending' | hOpened | hSetup | hSealing
        · exact .inl hPending'
        · exact .inr ⟨i, hOpened hTracks⟩
        · cases (hOwned.setup i id hSetup).symm.trans hPending
        · exact absurd hSealing (hStays _ (.inl rfl))
      · exact .inr ⟨j, kept_of_others (P := fun p => p.phase.vacates = some id) hOthers hVacates hj⟩
    · exact .inr ⟨i, hNow⟩
  · exact .inl hPending

theorem Heard.manned_of_turn (hFiled : Filed b) (hWinding : Winding b plans)
    (hTurn : Turn b (plans i) b' (plans' i)) :
    b'.closed = false → ∀ id, b'.Lists id → b'.Coherent id →
      b'.running ≠ none ∨ ∃ j, (plans' j).Starts := by
  intro hOpen id hListed hCoherent
  have hClosure := hTurn.closure
  have hOpen' : b.closed = false := eq_false_of_ne_true fun hClosed => by
    rw [hClosure.closed hClosed] at hOpen
    cases hOpen
  rcases (hTurn.exchange hFiled).coherent hCoherent (h.lapsed id) with hBefore | hNow
  · rcases (hTurn.footing hFiled).new id hListed with hListed' | ⟨hNone, -⟩
    · rcases h.manned hOpen' id hListed' hBefore with hRunning | ⟨j, hj⟩
      · rcases hClosure.kept hRunning with hRunning' | hStops
        · exact .inl hRunning'
        · cases hOpen'.symm.trans (hWinding.stops i hStops)
      · by_cases hRunning : b'.running = none
        · refine .inr ⟨j, kept_of_others (P := Plan.Starts) hOthers (fun hSelf => ?_) hj⟩
          exact (hClosure.starts hSelf).resolve_right fun h => h hRunning
        · exact .inl hRunning
    · have hFace : b.face id = none := Option.map_eq_none_iff.mp hNone
      simp [Books.coherent_iff, Books.held, Books.lapsed, hFace] at hBefore
  · exact .inr ⟨i, hNow⟩

end Preservation

theorem Heard.turn (h : Heard b plans) (hFiled : Filed b) (hOwned : Owned b plans)
    (hWinding : Winding b plans) (hUndisturbed : Undisturbed b plans)
    (hTurn : Turn b (plans i) b' (plans' i)) (hOthers : ∀ j, j ≠ i → plans' j = plans j) :
    Heard b' plans' := by
  have hFooting := hTurn.footing hFiled
  have hExchange := hTurn.exchange hFiled
  exact {
    bound := h.bound_of_exchange hExchange
    vacant := h.vacant_of_exchange hOthers hOwned hUndisturbed hExchange
    pending := h.pending_of_exchange hOwned hUndisturbed hFooting hExchange
    guarded := h.guarded_of_exchange hOthers hOwned hUndisturbed hFooting hExchange
    sought := h.sought_of_exchange hOthers hFooting hExchange
    untracked := h.untracked_of_exchange hFooting hExchange
    lapsed := h.lapsed_of_exchange hExchange
    answered := h.answered_of_exchange hOthers hOwned hFooting hExchange
    manned := h.manned_of_turn hOthers hFiled hWinding hTurn }

theorem Heard.begin (h : Heard b plans) (operation : Operation) (hOver : plans i = .idle)
    (hBegun : plans' i = operation.plan) (hOthers : ∀ j, j ≠ i → plans' j = plans j) :
    Heard b plans' := by
  have hQuiet : operation.plan.phase.vacates = none ∧ operation.plan.phase.guards = none ∧
      operation.plan.phase.seeks = none := by
    cases operation <;> exact ⟨rfl, rfl, rfl⟩
  have hIdle : Plan.idle.phase.vacates = none ∧ Plan.idle.phase.guards = none := ⟨rfl, rfl⟩
  obtain ⟨hBound, hVacant, hPending, hGuarded, hSought, hUntracked, hLapsed, hAnswered,
    hManned⟩ := h
  constructor <;> grind [Plan.not_starts_idle]

section Answers

/-- A cache in the directory that wants events has the answer to its request for a listener. -/
structure Settled (b : Books) (plans : Nat → Plan) (id : CacheId) : Prop where
  listed : b.Lists id
  tracks : b.tracks id
  begun : b.stage id ≠ some .pending
  answered : ∀ i, (plans i).phase.vacates ≠ some id

/-- The mode in which a request for a listener leaves a cache. -/
def Books.answer (b : Books) (shape : EventShape) : CoherenceMode :=
  if b.faults.refuseListeners then .reconciledOnly else shape.mode

variable {id : CacheId} {shape : EventShape}

theorem Exchange.mode_of_awaits (h : Exchange b p b' p')
    (hAwaits : p.phase.awaits = some (id, shape)) (hKnown : b.stage id ≠ none)
    (hVacant : b.held id = none) : b'.mode id = b.answer shape := by
  unfold Books.answer
  cases h with
  | same _ _ _ _ _ _ _ _ _ _ hNone => exact absurd (hNone id shape hAwaits) hKnown
  | grant other name shape' hTitle hAwaits' hGranted hHeld =>
      cases hAwaits'.symm.trans hAwaits
      have hGrant : b'.held id = some (b.granted name shape) := by rw [hHeld, if_pos rfl]
      rw [Books.mode_of_held _ hGrant, hGranted]
      rfl
  | refuse other shape' hAwaits' hRefused hHeld hLapsed =>
      cases hAwaits'.symm.trans hAwaits
      have hLapse : b'.lapsed id = true := by rw [hLapsed, if_pos rfl]
      simp [Books.mode_of_vacant _ ((hHeld id).trans hVacant), hLapse, hRefused]
  | detach _ _ _ _ _ _ _ _ _ _ _ _ hNone => cases hNone.symm.trans hAwaits
  | remove _ _ _ _ _ _ _ _ _ _ _ hNone => cases hNone.symm.trans hAwaits
  | release _ _ _ _ _ _ _ _ _ _ _ hNone => cases hNone.symm.trans hAwaits

/-- A cache that is not torn down keeps its mode as long as its listener is neither asked for nor
taken away. -/
theorem Exchange.mode_of_answered (h : Exchange b p b' p')
    (hAwaits : ∀ shape, p.phase.awaits ≠ some (id, shape)) (hKnown : b.stage id ≠ none)
    (hStays : p.role ≠ some (.teardown, id)) (hAnswered : p'.phase.vacates ≠ some id) :
    p.phase.vacates ≠ some id ∧ b'.mode id = b.mode id := by
  have hMode : b'.held id = b.held id → b'.lapsed id = b.lapsed id → b'.mode id = b.mode id :=
    Books.mode_congr
  cases h <;> grind

/-- A cache is settled by an answer for it, and keeps the mode that it was settled in. -/
theorem Settled.before (h : Settled b' plans' id) (hFiled : Filed b) (hOwned : Owned b plans)
    (hTurn : Turn b (plans i) b' (plans' i)) (hOthers : ∀ j, j ≠ i → plans' j = plans j)
    (hAwaits : ∀ shape, (plans i).phase.awaits ≠ some (id, shape)) :
    Settled b plans id ∧ b'.mode id = b.mode id := by
  have hFooting := hTurn.footing hFiled
  have hListed := (hFooting.new id h.listed).resolve_right fun hNew => h.begun hNew.2
  have hKnown := hOwned.known id hListed
  have hStays : ∀ r, r = .sealing ∨ r = .teardown → (plans i).role ≠ some (r, id) :=
    fun r hr hRole => (hOwned.leaving i id r hRole hr).2 hListed
  have hTracks : b.tracks id := hFooting.tracks id hKnown ▸ h.tracks
  have hBegun : b.stage id ≠ some .pending := by
    intro hPending
    rcases hFooting.opened id hPending with hPending' | hOpened | hSetup | hSealing
    · exact h.begun hPending'
    · exact h.answered i (hOpened hTracks)
    · cases (hOwned.setup i id hSetup).symm.trans hPending
    · exact hStays _ (.inl rfl) hSealing
  obtain ⟨hSelf, hMode⟩ := (hTurn.exchange hFiled).mode_of_answered hAwaits hKnown
    (hStays _ (.inr rfl)) (h.answered i)
  refine ⟨⟨hListed, hTracks, hBegun, fun j hj => ?_⟩, hMode⟩
  by_cases hSame : j = i
  · exact hSelf (hSame ▸ hj)
  · exact h.answered j (by rw [hOthers j hSame, hj])

end Answers

end NearCache
