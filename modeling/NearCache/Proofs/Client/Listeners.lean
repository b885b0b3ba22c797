import NearCache.Proofs.Client.Staff

/-!
What turns do to the listeners of a client. Whatever takes turns, a subscription that a cache holds
is registered under its name and bound to it, and a registration that is not bound is about to be
removed.
-/

namespace NearCache

namespace Phase

/-- The registration that an activity has unbound and is about to remove. -/
def removes : Phase → Option RegistrationId
  | .removing _ _ registration _ => some registration
  | _ => none

/-- The cache that an activity has found without a listener, or taken it from. -/
def vacates : Phase → Option CacheId
  | .requesting id _ | .awaiting id _ _ _ | .removing id _ _ _ => some id
  | _ => none

/-- The cache that an activity will ask a listener for. -/
def seeks : Phase → Option CacheId
  | .requesting id _ | .awaiting id _ _ _ => some id
  | .detaching id (.renewal _) | .removing id _ _ (.renewal _) => some id
  | _ => none

/-- The cache that an activity tears down and has not taken the listener from. -/
def guards : Phase → Option CacheId
  | .sealing id | .detaching id .release => some id
  | _ => none

/-- The cache that an activity waits for the listener of, and the shape of the events asked for. -/
def awaits : Phase → Option (CacheId × EventShape)
  | .awaiting id shape _ _ => some (id, shape)
  | _ => none

end Phase

/-- The mode of a cache that holds a subscription of this shape. -/
def EventShape.mode : EventShape → CoherenceMode
  | .repairable => .repairable
  | .legacy => .legacy

namespace Books

def held (b : Books) (id : CacheId) : Option Subscription :=
  (b.face id).bind Face.subscription

/-- A cache was refused a listener, and granted none since. -/
def lapsed (b : Books) (id : CacheId) : Bool :=
  (b.face id).any Face.pushUnavailable

def tracks (b : Books) (id : CacheId) : Bool :=
  (b.face id).any Face.invalidates

def mode (b : Books) (id : CacheId) : CoherenceMode :=
  (b.face id).elim .untracked Face.mode

/-- The cluster has issued this registration. -/
def Issued (b : Books) (r : RegistrationId) : Prop :=
  ∃ k < b.nextRegistration, r = Cluster.registrationText k

variable (b : Books)

/-- A change of a cache that leaves it its subscription. -/
theorem held_changeFace_of_same (id other : CacheId) {change : Face → Face}
    (hSame : ∀ f, (change f).subscription = f.subscription) :
    (b.changeFace id change).held other = b.held other :=
  b.view_changeFace (·.bind Face.subscription) fun _ => hSame

theorem tracks_changeFace_of_same (id other : CacheId) {change : Face → Face}
    (hSame : ∀ f, (change f).invalidates = f.invalidates) :
    (b.changeFace id change).tracks other = b.tracks other :=
  b.view_changeFace (Option.any Face.invalidates) fun _ => hSame

theorem mode_changeFace_of_same (id other : CacheId) {change : Face → Face}
    (hSame : ∀ f, (change f).mode = f.mode) :
    (b.changeFace id change).mode other = b.mode other :=
  b.view_changeFace (·.elim CoherenceMode.untracked Face.mode) fun _ => hSame

theorem mode_of_held {id : CacheId} {subscription : Subscription}
    (h : b.held id = some subscription) :
    b.mode id = subscription.shape.mode := by
  obtain ⟨f, hFace, hHeld⟩ := Option.bind_eq_some_iff.mp h
  simp only [mode, hFace, Option.elim_some, Face.mode, hHeld, Option.map_some]
  cases subscription.shape <;> rfl

theorem mode_of_vacant {id : CacheId} (h : b.held id = none) :
    b.mode id = if b.lapsed id then .reconciledOnly else .untracked := by
  unfold held at h
  unfold mode lapsed
  cases hFace : b.face id with
  | none => simp
  | some f =>
      have hNone : f.subscription = none := by rwa [hFace] at h
      simp [Face.mode, hNone]

theorem mode_ne_legacy_of_vacant {id : CacheId} (h : b.held id = none) : b.mode id ≠ .legacy := by
  rw [b.mode_of_vacant h]
  cases b.lapsed id <;> decide

theorem mode_congr {b b' : Books} {id : CacheId} (hHeld : b'.held id = b.held id)
    (hLapsed : b'.lapsed id = b.lapsed id) : b'.mode id = b.mode id := by
  cases hBefore : b.held id with
  | none => rw [b'.mode_of_vacant (hHeld.trans hBefore), b.mode_of_vacant hBefore, hLapsed]
  | some subscription => rw [b'.mode_of_held (hHeld.trans hBefore), b.mode_of_held hBefore]

theorem mode_eq_untracked_iff (id : CacheId) :
    b.mode id = .untracked ↔ b.held id = none ∧ b.lapsed id = false := by
  cases hHeld : b.held id with
  | none =>
      rw [b.mode_of_vacant hHeld]
      cases b.lapsed id <;> simp
  | some subscription =>
      rw [b.mode_of_held hHeld]
      cases subscription.shape <;> simp [EventShape.mode]

/-- A cache takes part in reconciliation. -/
def Coherent (b : Books) (id : CacheId) : Prop :=
  b.mode id = .repairable ∨ b.mode id = .reconciledOnly

theorem coherent_iff (id : CacheId) :
    b.Coherent id ↔ (∃ name r, b.held id = some ⟨name, r, .repairable⟩) ∨
      (b.held id = none ∧ b.lapsed id) := by
  cases hHeld : b.held id with
  | none =>
      rw [Coherent, b.mode_of_vacant hHeld]
      cases b.lapsed id <;> simp
  | some subscription =>
      obtain ⟨name, r, shape⟩ := subscription
      rw [Coherent, b.mode_of_held hHeld]
      cases shape <;> simp [EventShape.mode]

end Books

variable {b b' : Books} {p p' : Plan} {plans plans' : Nat → Plan} {i : Nat}

/-- What a turn does to the listeners. -/
inductive Exchange (b : Books) (p : Plan) (b' : Books) (p' : Plan) : Prop
  | same (hHeld : ∀ id, b'.held id = b.held id) (hLapsed : ∀ id, b'.lapsed id = b.lapsed id)
      (hRegistered : ∀ r, b'.registered r = b.registered r) (hBound : ∀ r, b'.bound r = b.bound r)
      (hNext : b'.nextRegistration = b.nextRegistration)
      (hRemoves : p.phase.removes = none ∧ p'.phase.removes = none)
      (hVacates : ∀ id, p'.phase.vacates = some id →
        p.phase.vacates = some id ∨ b.stage id = some .pending ∨ b.held id = none)
      (hFilled : ∀ id, p.phase.vacates = some id → p'.phase.vacates = some id ∨ b.stage id = none)
      (hSeeks : ∀ id, p'.phase.seeks = some id → p.phase.seeks = some id ∨ b.tracks id)
      (hGuards : ∀ id, p.phase.guards = some id → p'.phase.guards = some id ∨ b.held id = none)
      (hAwaits : ∀ id shape, p.phase.awaits = some (id, shape) → b.stage id = none)
  | grant (id : CacheId) (name : String) (shape : EventShape) (hTitle : b.title id = some name)
      (hAwaits : p.phase.awaits = some (id, shape)) (hGranted : b.faults.refuseListeners = false)
      (hHeld : ∀ other, b'.held other =
        if other = id then some (b.granted name shape) else b.held other)
      (hLapsed : ∀ other, b'.lapsed other = if other = id then false else b.lapsed other)
      (hRegistered : ∀ r, b'.registered r =
        if r = Cluster.registrationText b.nextRegistration then some name else b.registered r)
      (hBound : ∀ r, b'.bound r =
        if r = Cluster.registrationText b.nextRegistration then some id else b.bound r)
      (hNext : b'.nextRegistration = b.nextRegistration + 1)
      (hRemoves : p.phase.removes = none ∧ p'.phase.removes = none)
      (hVacates : p.phase.vacates = some id ∧ p'.phase.vacates = none)
      (hSeeks : p.phase.seeks = some id ∧ p'.phase.seeks = none)
      (hGuards : p.phase.guards = none) (hStarts : shape = .repairable → p'.Starts)
  | refuse (id : CacheId) (shape : EventShape) (hAwaits : p.phase.awaits = some (id, shape))
      (hRefused : b.faults.refuseListeners = true)
      (hHeld : ∀ id, b'.held id = b.held id)
      (hLapsed : ∀ other, b'.lapsed other = if other = id then true else b.lapsed other)
      (hRegistered : ∀ r, b'.registered r = b.registered r) (hBound : ∀ r, b'.bound r = b.bound r)
      (hNext : b'.nextRegistration = b.nextRegistration)
      (hRemoves : p.phase.removes = none ∧ p'.phase.removes = none)
      (hVacates : p.phase.vacates = some id ∧ p'.phase.vacates = none)
      (hSeeks : p.phase.seeks = some id ∧ p'.phase.seeks = none)
      (hGuards : p.phase.guards = none) (hStarts : p'.Starts)
  | detach (id : CacheId) (subscription : Subscription) (hBefore : b.held id = some subscription)
      (hHeld : ∀ other, b'.held other = if other = id then none else b.held other)
      (hLapsed : ∀ id, b'.lapsed id = b.lapsed id)
      (hRegistered : ∀ r, b'.registered r = b.registered r)
      (hBound : ∀ r, b'.bound r = if r = subscription.registration then none else b.bound r)
      (hNext : b'.nextRegistration = b.nextRegistration)
      (hRemoves : p.phase.removes = none ∧ p'.phase.removes = some subscription.registration)
      (hVacates : p.phase.vacates = none ∧ p'.phase.vacates = some id)
      (hSeeks : p'.phase.seeks = p.phase.seeks)
      (hGuards : ∀ other, p.phase.guards = some other → other = id)
      (hAwaits : p.phase.awaits = none)
  | remove (r : RegistrationId) (hHeld : ∀ id, b'.held id = b.held id)
      (hLapsed : ∀ id, b'.lapsed id = b.lapsed id)
      (hRegistered : ∀ other, b'.registered other = if other = r then none else b.registered other)
      (hBound : ∀ r, b'.bound r = b.bound r) (hNext : b'.nextRegistration = b.nextRegistration)
      (hRemoves : p.phase.removes = some r ∧ p'.phase.removes = none)
      (hVacates : ∀ id, p'.phase.vacates = some id → p.phase.vacates = some id)
      (hFilled : ∀ id, p.phase.vacates = some id →
        p'.phase.vacates = some id ∨ p.role = some (.teardown, id))
      (hSeeks : p'.phase.seeks = p.phase.seeks) (hGuards : p.phase.guards = none)
      (hAwaits : p.phase.awaits = none)
  | release (id : CacheId) (hHeld : ∀ id, b'.held id = b.held id)
      (hLapsed : ∀ other, b'.lapsed other = if other = id then false else b.lapsed other)
      (hRegistered : ∀ r, b'.registered r = b.registered r) (hBound : ∀ r, b'.bound r = b.bound r)
      (hNext : b'.nextRegistration = b.nextRegistration)
      (hRole : p.role = some (.teardown, id))
      (hRemoves : p.phase.removes = none ∧ p'.phase.removes = none)
      (hVacates : p.phase.vacates = none ∧ p'.phase.vacates = none)
      (hSeeks : p'.phase.seeks = none) (hGuards : p.phase.guards = none)
      (hAwaits : p.phase.awaits = none)

/-- Subscriptions, registrations and bindings are the same. -/
structure SameHoldings (b b' : Books) : Prop where
  held : ∀ id, b'.held id = b.held id := by exact fun _ => rfl
  lapsed : ∀ id, b'.lapsed id = b.lapsed id := by exact fun _ => rfl
  registered : ∀ r, b'.registered r = b.registered r := by exact fun _ => rfl
  bound : ∀ r, b'.bound r = b.bound r := by exact fun _ => rfl
  next : b'.nextRegistration = b.nextRegistration := by rfl

/-- A change of a cache that is not about its listener. -/
theorem SameHoldings.changeFace (b : Books) (id : CacheId) {change : Face → Face}
    (hHeld : ∀ f, (change f).subscription = f.subscription)
    (hLapsed : ∀ f, (change f).pushUnavailable = f.pushUnavailable) :
    SameHoldings b (b.changeFace id change) where
  held other := b.held_changeFace_of_same id other hHeld
  lapsed _ := b.view_changeFace (·.any Face.pushUnavailable) fun _ => hLapsed

/-- What an activity may come to be about in a turn that touches no listener. Unless said otherwise,
it is not about a listener before or after. -/
structure Passive (b : Books) (p p' : Plan) : Prop where
  removes : p.phase.removes = none ∧ p'.phase.removes = none := by exact ⟨rfl, rfl⟩
  vacates : ∀ id, p'.phase.vacates = some id →
    p.phase.vacates = some id ∨ b.stage id = some .pending ∨ b.held id = none := by rintro _ ⟨⟩
  filled : ∀ id, p.phase.vacates = some id →
    p'.phase.vacates = some id ∨ b.stage id = none := by rintro _ ⟨⟩
  seeks : ∀ id, p'.phase.seeks = some id → p.phase.seeks = some id ∨ b.tracks id := by rintro _ ⟨⟩
  guards : ∀ id, p.phase.guards = some id →
    p'.phase.guards = some id ∨ b.held id = none := by rintro _ ⟨⟩
  awaits : ∀ id shape, p.phase.awaits = some (id, shape) → b.stage id = none := by rintro _ _ ⟨⟩

theorem SameHoldings.exchange (h : SameHoldings b b') (hPassive : Passive b p p') :
    Exchange b p b' p' :=
  .same h.held h.lapsed h.registered h.bound h.next hPassive.removes hPassive.vacates hPassive.filled
    hPassive.seeks hPassive.guards hPassive.awaits

section Exchanges

variable {id : CacheId} {name : String} {tail : List Chore}

theorem exchange_create (hFiled : Filed b) {f : Face} (hVacant : f.subscription = none)
    (hLapsed : f.pushUnavailable = false) :
    Exchange b ⟨.opening name, tail⟩ (b.add f) ⟨.entering name b.nextCache, tail⟩ := by
  have hSame : SameHoldings b (b.add f) := {
    held := hFiled.view_add (·.bind Face.subscription) hVacant
    lapsed := hFiled.view_add (·.any Face.pushUnavailable) hLapsed }
  exact hSame.exchange {}

theorem exchange_enter {f : Face} (hFace : b.face id = some f) (hPending : f.setup = .pending) :
    Exchange b ⟨.entering name id, tail⟩ (b.changeFace id fun f => { f with setup := .running })
      ⟨if f.invalidates then .requesting id (.setup name) else .finishing name id, tail⟩ := by
  have hSame : SameHoldings b (b.changeFace id fun f => { f with setup := .running }) :=
    .changeFace b id (fun _ => rfl) fun _ => rfl
  cases hTracked : f.invalidates with
  | false => exact hSame.exchange {}
  | true =>
      refine hSame.exchange { vacates := ?_, seeks := ?_ }
      · rintro other ⟨⟩
        exact .inr (.inl (by simp [Books.stage, hFace, hPending]))
      · rintro other ⟨⟩
        exact .inr (by simp [Books.tracks, hFace, hTracked])

theorem exchange_seal (hSame : SameHoldings b b') :
    Exchange b ⟨.sealing id, tail⟩ b' ⟨.detaching id .release, tail⟩ :=
  hSame.exchange { guards := fun _ => .inl }

theorem exchange_renew {f : Face} {seeds : Bool} {chore : Chore} (hFace : b.face id = some f)
    (hTracked : f.invalidates = true) :
    Exchange b ⟨.free, chore :: tail⟩ b ⟨.detaching id (.renewal seeds), tail⟩ := by
  refine SameHoldings.exchange {} { seeks := ?_ }
  rintro other ⟨⟩
  exact .inr (by simp [Books.tracks, hFace, hTracked])

section Errands

variable {shape : EventShape} {due : Nat} {errand : Errand}

theorem exchange_request :
    Exchange b ⟨.requesting id errand, tail⟩ b ⟨.awaiting id shape due errand, tail⟩ :=
  SameHoldings.exchange {}
    { vacates := fun _ => .inl, filled := fun _ => .inl, seeks := fun _ => .inl }

/-- No listener is asked for a cache that is not known. -/
theorem exchange_requestNone (hNone : b.face id = none) :
    Exchange b ⟨.requesting id errand, tail⟩ b ⟨errand.next id, tail⟩ := by
  have hFilled : ∀ other, some id = some other → b.stage other = none := by
    rintro other ⟨⟩
    simp [Books.stage, hNone]
  cases errand <;> exact SameHoldings.exchange {} { filled := fun other h => .inr (hFilled other h) }

theorem exchange_awaitNone (hNone : b.face id = none) :
    Exchange b ⟨.awaiting id shape due errand, tail⟩ b ⟨errand.next id, tail⟩ := by
  have hFilled : ∀ other, some id = some other → b.stage other = none := by
    rintro other ⟨⟩
    simp [Books.stage, hNone]
  have hAwaits : ∀ other shape', some (id, shape) = some (other, shape') → b.stage other = none := by
    rintro other shape' ⟨⟩
    simp [Books.stage, hNone]
  cases errand <;>
    exact SameHoldings.exchange {}
      { filled := fun other h => .inr (hFilled other h), awaits := hAwaits }

/-- A cache is settled without another word about its listener. -/
theorem exchange_next (hSame : SameHoldings b b') :
    Exchange b ⟨.starting id errand, tail⟩ b' ⟨errand.next id, tail⟩ := by
  cases errand <;> exact hSame.exchange {}

theorem Errand.quiet_settling (errand : Errand) (id : CacheId) (limit : Duration) :
    (errand.settling id limit).removes = none ∧ (errand.settling id limit).vacates = none ∧
      (errand.settling id limit).seeks = none := by
  rcases errand with name | _ | _ <;> exact ⟨rfl, rfl, rfl⟩

theorem Errand.quiet_afterGrant (errand : Errand) (id : CacheId) (limit : Duration)
    (shape : EventShape) : (errand.afterGrant id limit shape).removes = none ∧
      (errand.afterGrant id limit shape).vacates = none ∧
      (errand.afterGrant id limit shape).seeks = none := by
  cases shape with
  | repairable => exact errand.quiet_settling id limit
  | legacy => cases errand <;> exact ⟨rfl, rfl, rfl⟩

theorem Errand.starts_settling (errand : Errand) (id : CacheId) (limit : Duration) :
    (errand.settling id limit).starts := by
  rcases errand with name | _ | _ <;> rfl

theorem exchange_grant {f : Face} {limit : Duration} (hFace : b.face id = some f)
    (hGranted : b.faults.refuseListeners = false) :
    Exchange b ⟨.awaiting id shape due errand, tail⟩ (b.install id f shape)
      ⟨errand.afterGrant id limit shape, tail⟩ := by
  obtain ⟨hRemoves, hVacates, hSeeks⟩ := errand.quiet_afterGrant id limit shape
  refine .grant id f.name shape (by simp [Books.title, hFace]) rfl hGranted
    (b.view_changeFace_eq (·.bind Face.subscription) hFace)
    (b.view_changeFace_eq (·.any Face.pushUnavailable) hFace) (fun _ => Function.update_apply ..)
    (fun _ => Function.update_apply ..) rfl ⟨rfl, hRemoves⟩ ⟨rfl, hVacates⟩ ⟨rfl, hSeeks⟩ rfl ?_
  rintro rfl
  exact errand.starts_settling id limit

theorem exchange_refuse {limit : Duration} (hKnown : (b.face id).isSome)
    (hRefused : b.faults.refuseListeners = true) :
    Exchange b ⟨.awaiting id shape due errand, tail⟩
      (b.changeFace id fun f => { f with pushUnavailable := true })
      ⟨errand.settling id limit, tail⟩ := by
  obtain ⟨f, hFace⟩ := Option.isSome_iff_exists.mp hKnown
  obtain ⟨hRemoves, hVacates, hSeeks⟩ := errand.quiet_settling id limit
  exact .refuse id shape rfl hRefused (fun other => b.held_changeFace_of_same id other fun _ => rfl)
    (b.view_changeFace_eq (·.any Face.pushUnavailable) hFace) (fun _ => rfl) (fun _ => rfl) rfl
    ⟨rfl, hRemoves⟩ ⟨rfl, hVacates⟩ ⟨rfl, hSeeks⟩ rfl (errand.starts_settling id limit)

end Errands

section Sequels

variable {sequel : Sequel}

/-- A cache without a listener needs none removed. -/
theorem exchange_detachNone (hNone : ∀ f, b.face id = some f → f.subscription = none) :
    Exchange b ⟨.detaching id sequel, tail⟩ b ⟨sequel.next id, tail⟩ := by
  have hVacant : b.held id = none := by
    simp only [Books.held, Option.bind_eq_none_iff]
    exact hNone
  cases sequel with
  | release =>
      refine SameHoldings.exchange {} { guards := ?_ }
      rintro other ⟨⟩
      exact .inr hVacant
  | renewal seeds =>
      refine SameHoldings.exchange {} { vacates := ?_, seeks := fun _ => .inl }
      rintro other ⟨⟩
      exact .inr (.inr hVacant)

theorem exchange_detach {f : Face} {subscription : Subscription} (hFace : b.face id = some f)
    (hHolds : f.subscription = some subscription) :
    Exchange b ⟨.detaching id sequel, tail⟩ (b.detach id subscription)
      ⟨.removing id subscription.cacheName subscription.registration sequel, tail⟩ := by
  have hSeeks : (Phase.removing id subscription.cacheName subscription.registration sequel).seeks =
      (Phase.detaching id sequel).seeks := by
    cases sequel <;> rfl
  refine .detach id subscription (by simp [Books.held, hFace, hHolds])
    (b.view_changeFace_eq (·.bind Face.subscription) hFace)
    (fun _ => b.view_changeFace (·.any Face.pushUnavailable) fun _ _ => rfl) (fun _ => rfl)
    (fun _ => Function.update_apply ..) rfl ⟨rfl, rfl⟩ ⟨rfl, rfl⟩ hSeeks (fun other h => ?_) rfl
  cases sequel <;> cases h
  rfl

theorem exchange_remove {registration : RegistrationId} :
    Exchange b ⟨.removing id name registration sequel, tail⟩ (b.strike registration)
      ⟨sequel.next id, tail⟩ := by
  have hRemoved : ∀ other, (b.strike registration).registered other =
      if other = registration then none else b.registered other := fun _ => Function.update_apply ..
  cases sequel with
  | release =>
      refine .remove registration (fun _ => rfl) (fun _ => rfl) hRemoved (fun _ => rfl) rfl
        ⟨rfl, rfl⟩ (by rintro _ ⟨⟩) (fun other h => ?_) rfl rfl rfl
      cases h
      exact .inr rfl
  | renewal seeds =>
      exact .remove registration (fun _ => rfl) (fun _ => rfl) hRemoved (fun _ => rfl) rfl
        ⟨rfl, rfl⟩ (fun _ h => h) (fun _ => .inl) rfl rfl rfl

end Sequels

theorem exchange_release :
    Exchange b ⟨.releasing id, tail⟩ (b.changeFace id fun f => { f with pushUnavailable := false })
      ⟨.free, .conclude (.flag true) :: tail⟩ := by
  refine .release id (fun other => b.held_changeFace_of_same id other fun _ => rfl) (fun other => ?_)
    (fun _ => rfl) (fun _ => rfl) rfl rfl ⟨rfl, rfl⟩ ⟨rfl, rfl⟩ rfl rfl rfl
  simp only [Books.lapsed, Books.changeFace, Function.update_apply]
  split
  · cases b.face id <;> rfl
  · rfl

end Exchanges

theorem Turn.exchange (hFiled : Filed b) (h : Turn b p b' p') : Exchange b p b' p' := by
  cases h
  case create => exact exchange_create hFiled rfl rfl
  case enter hFace hPending => exact exchange_enter hFace hPending
  case finish => exact SameHoldings.exchange (.changeFace b _ (fun _ => rfl) fun _ => rfl) {}
  case request => exact exchange_request
  case requestNone hNone => exact exchange_requestNone hNone
  case awaitNone hNone => exact exchange_awaitNone hNone
  case grant hFace hGranted => exact exchange_grant hFace hGranted
  case refuse hKnown hRefused => exact exchange_refuse hKnown hRefused
  case staffed => exact exchange_next {}
  case hire => exact exchange_next {}
  case sealNone => exact exchange_seal {}
  case sealPending => exact exchange_seal (.changeFace b _ (fun _ => rfl) fun _ => rfl)
  case detachNone hNone => exact exchange_detachNone hNone
  case detach hFace hHolds => exact exchange_detach hFace hHolds
  case remove => exact exchange_remove
  case release => exact exchange_release
  case renew hFace hTracked => exact exchange_renew hFace hTracked
  -- The others are about no listener.
  all_goals exact SameHoldings.exchange {} {}

section Registrations

/-- A number can be read off its decimal text. -/
theorem natText_injective : Function.Injective natText := by
  intro k l h
  have hDigits := congrArg (fun text : String => Nat.ofDigitChars 10 text.toList 0) h
  simpa [natText, Nat.repr] using hDigits

theorem registrationText_injective : Function.Injective Cluster.registrationText := by
  intro k l h
  have hText := congrArg String.toList h
  simp only [Cluster.registrationText, String.toList_append] at hText
  exact natText_injective (String.toList_injective (List.append_cancel_left hText))

theorem Books.not_issued_next (b : Books) :
    ¬b.Issued (Cluster.registrationText b.nextRegistration) := by
  rintro ⟨k, hLess, hText⟩
  exact Nat.ne_of_gt hLess (registrationText_injective hText)

end Registrations

/-- Subscriptions that caches hold, registrations and bindings go together. -/
structure Ledger (b : Books) (plans : Nat → Plan) : Prop where
  held : ∀ id subscription, b.held id = some subscription →
    b.bound subscription.registration = some id ∧ b.title id = some subscription.cacheName
  bound : ∀ r id, b.bound r = some id → b.title id ≠ none ∧ b.registered r = b.title id
  registered : ∀ r, b.registered r ≠ none →
    b.bound r ≠ none ∨ ∃ i, (plans i).phase.removes = some r
  removed : ∀ i r, (plans i).phase.removes = some r → b.bound r = none
  issued : ∀ r, b.registered r ≠ none → b.Issued r
  struck : ∀ i r, (plans i).phase.removes = some r → b.Issued r

theorem Exchange.issued_mono (h : Exchange b p b' p') {r : RegistrationId} (hIssued : b.Issued r) :
    b'.Issued r := by
  obtain ⟨k, hLess, rfl⟩ := hIssued
  refine ⟨k, ?_, rfl⟩
  cases h <;> lia

/-- Only what the cluster issues is registered. -/
theorem Exchange.issued_of_registered (h : Exchange b p b' p') {r : RegistrationId}
    (hRegistered : b'.registered r ≠ none) : b.registered r ≠ none ∨ b'.Issued r := by
  cases h with
  | same _ _ hSame => exact .inl (hSame r ▸ hRegistered)
  | grant id name shape _ _ _ _ _ hNew _ hNext =>
      by_cases hFresh : r = Cluster.registrationText b.nextRegistration
      · exact .inr ⟨_, by rw [hNext]; exact Nat.lt_succ_self _, hFresh⟩
      · rw [hNew, if_neg hFresh] at hRegistered
        exact .inl hRegistered
  | refuse _ _ _ _ _ _ hSame => exact .inl (hSame r ▸ hRegistered)
  | detach _ _ _ _ _ hSame => exact .inl (hSame r ▸ hRegistered)
  | remove r' _ _ hNew =>
      rw [hNew] at hRegistered
      split at hRegistered
      · exact absurd rfl hRegistered
      · exact .inl hRegistered
  | release _ _ _ hSame => exact .inl (hSame r ▸ hRegistered)

/-- A cache that is known keeps its name. -/
theorem Turn.title_of_known (hFiled : Filed b) (h : Turn b p b' p') {id : CacheId}
    (hKnown : b.title id ≠ none) : b'.title id = b.title id := by
  rcases h.titles with ⟨-, hTitle, -⟩ | ⟨f, -, rfl⟩
  · exact hTitle id
  · simp [Books.title, Books.add, Function.update_of_ne (Nat.ne_of_lt (hFiled.numbered id hKnown))]

section Preservation

variable (h : Ledger b plans)
include h

/-- What the cluster issues next is bound to no cache yet. -/
theorem Ledger.bound_next : b.bound (Cluster.registrationText b.nextRegistration) = none := by
  by_contra hSome
  obtain ⟨id, hBinds⟩ := Option.ne_none_iff_exists'.mp hSome
  obtain ⟨hKnown, hRegistered⟩ := h.bound _ id hBinds
  exact b.not_issued_next (h.issued _ (hRegistered ▸ hKnown))

theorem Ledger.held_of_exchange (hTitles : ∀ id, b.title id ≠ none → b'.title id = b.title id)
    (hExchange : Exchange b p b' p') :
    ∀ id subscription, b'.held id = some subscription →
      b'.bound subscription.registration = some id ∧
        b'.title id = some subscription.cacheName := by
  have hKept : ∀ id subscription, b.held id = some subscription →
      b'.bound subscription.registration = b.bound subscription.registration →
      b'.bound subscription.registration = some id ∧
        b'.title id = some subscription.cacheName := by
    intro id subscription hHolds hSame
    obtain ⟨hBinds, hTitle⟩ := h.held id subscription hHolds
    exact ⟨hSame.trans hBinds, (hTitles id (by simp [hTitle])).trans hTitle⟩
  intro id subscription hHolds
  cases hExchange with
  | same hHeld _ _ hBound => exact hKept id _ (hHeld id ▸ hHolds) (hBound _)
  | grant new name shape hTitle _ _ hHeld _ _ hBound =>
      rw [hHeld] at hHolds
      split at hHolds
      next hSame =>
        subst hSame
        cases hHolds
        exact ⟨(hBound _).trans (if_pos rfl),
          (hTitles id (by simp [hTitle])).trans hTitle⟩
      next =>
        refine hKept id _ hHolds ((hBound _).trans (if_neg fun hFresh => ?_))
        cases h.bound_next.symm.trans (hFresh ▸ (h.held id _ hHolds).1)
  | refuse _ _ _ _ hHeld _ _ hBound => exact hKept id _ (hHeld id ▸ hHolds) (hBound _)
  | detach vacated taken hTaken hHeld _ _ hBound =>
      rw [hHeld] at hHolds
      split at hHolds
      · cases hHolds
      next hOther =>
        -- The registration that is unbound was bound to the other cache only.
        refine hKept id _ hHolds ((hBound _).trans (if_neg fun hSame => hOther ?_))
        have hBinds := (h.held id _ hHolds).1
        rw [hSame] at hBinds
        exact Option.some.inj (hBinds.symm.trans (h.held vacated taken hTaken).1)
  | remove _ hHeld _ _ hBound => exact hKept id _ (hHeld id ▸ hHolds) (hBound _)
  | release _ hHeld _ _ hBound => exact hKept id _ (hHeld id ▸ hHolds) (hBound _)

theorem Ledger.bound_of_exchange (hTitles : ∀ id, b.title id ≠ none → b'.title id = b.title id)
    (hExchange : Exchange b (plans i) b' p') :
    ∀ r id, b'.bound r = some id → b'.title id ≠ none ∧ b'.registered r = b'.title id := by
  have hKept : ∀ r id, b.bound r = some id → b'.registered r = b.registered r →
      b'.title id ≠ none ∧ b'.registered r = b'.title id := by
    intro r id hBinds hSame
    obtain ⟨hKnown, hRegistered⟩ := h.bound r id hBinds
    rw [hTitles id hKnown]
    exact ⟨hKnown, hSame.trans hRegistered⟩
  intro r id hBinds
  cases hExchange with
  | same _ _ hRegistered hBound => exact hKept r id (hBound r ▸ hBinds) (hRegistered r)
  | grant new name shape hTitle _ _ _ _ hRegistered hBound =>
      rw [hBound] at hBinds
      split at hBinds
      next hFresh =>
        cases hBinds
        have hKnown : b.title id ≠ none := by simp [hTitle]
        rw [hTitles id hKnown, hRegistered, if_pos hFresh]
        exact ⟨hKnown, hTitle.symm⟩
      next hOld => exact hKept r id hBinds ((hRegistered r).trans (if_neg hOld))
  | refuse _ _ _ _ _ _ hRegistered hBound =>
      exact hKept r id (hBound r ▸ hBinds) (hRegistered r)
  | detach _ _ _ _ _ hRegistered hBound =>
      rw [hBound] at hBinds
      split at hBinds
      · cases hBinds
      · exact hKept r id hBinds (hRegistered r)
  | remove removed _ _ hRegistered hBound _ hRemoves =>
      rw [hBound] at hBinds
      refine hKept r id hBinds ((hRegistered r).trans (if_neg ?_))
      -- Only what has been unbound before is removed.
      rintro rfl
      cases (h.removed i r hRemoves.1).symm.trans hBinds
  | release _ _ _ hRegistered hBound => exact hKept r id (hBound r ▸ hBinds) (hRegistered r)

theorem Ledger.registered_of_exchange (hOthers : ∀ j, j ≠ i → plans' j = plans j)
    (hExchange : Exchange b (plans i) b' (plans' i)) :
    ∀ r, b'.registered r ≠ none → b'.bound r ≠ none ∨ ∃ j, (plans' j).phase.removes = some r := by
  have hRegistered := h.registered
  cases hExchange <;> grind

theorem Ledger.removed_of_exchange (hOthers : ∀ j, j ≠ i → plans' j = plans j)
    (hExchange : Exchange b (plans i) b' (plans' i)) :
    ∀ j r, (plans' j).phase.removes = some r → b'.bound r = none := by
  have hRemoved := h.removed
  have hStruck := h.struck
  have hFresh := b.not_issued_next
  cases hExchange <;> grind

theorem Ledger.struck_of_exchange (hOthers : ∀ j, j ≠ i → plans' j = plans j)
    (hExchange : Exchange b (plans i) b' (plans' i)) :
    ∀ j r, (plans' j).phase.removes = some r → b'.Issued r := by
  have hIssues : ∀ r, b.Issued r → b'.Issued r := fun r => hExchange.issued_mono
  have hStruck := h.struck
  -- What an activity unbinds is bound, hence registered and issued.
  have hTaken : ∀ id subscription, b.held id = some subscription →
      b.Issued subscription.registration := by
    intro id subscription hHolds
    obtain ⟨hKnown, hRegistered⟩ := h.bound _ id (h.held id subscription hHolds).1
    exact h.issued _ (hRegistered ▸ hKnown)
  cases hExchange <;> grind

end Preservation

theorem Ledger.turn (h : Ledger b plans) (hFiled : Filed b) (hTurn : Turn b (plans i) b' (plans' i))
    (hOthers : ∀ j, j ≠ i → plans' j = plans j) : Ledger b' plans' := by
  have hExchange := hTurn.exchange hFiled
  have hTitles : ∀ id, b.title id ≠ none → b'.title id = b.title id :=
    fun id => hTurn.title_of_known hFiled
  exact {
    held := h.held_of_exchange hTitles hExchange
    bound := h.bound_of_exchange hTitles hExchange
    registered := h.registered_of_exchange hOthers hExchange
    removed := h.removed_of_exchange hOthers hExchange
    issued := fun r hRegistered => (hExchange.issued_of_registered hRegistered).elim
      (fun hBefore => hExchange.issued_mono (h.issued r hBefore)) id
    struck := h.struck_of_exchange hOthers hExchange }

theorem Ledger.begin (h : Ledger b plans) (operation : Operation) (hOver : plans i = .idle)
    (hBegun : plans' i = operation.plan) (hOthers : ∀ j, j ≠ i → plans' j = plans j) :
    Ledger b plans' := by
  have hQuiet : operation.plan.phase.removes = none := by cases operation <;> rfl
  have hIdle : Plan.idle.phase.removes = none := rfl
  obtain ⟨hHeld, hBound, hRegistered, hRemoved, hIssued, hStruck⟩ := h
  constructor <;> grind

end NearCache
