import NearCache.Proofs.Client.Plan

/-!
Which activity has a cache in hand. A cache is set up by one activity and torn down by one, and a
cache that is torn down is no longer in the directory. Renewals keep to no such rule by themselves:
when they leave the others undisturbed is a condition of its own.
-/

namespace NearCache

/-- What an activity has a cache in hand for. -/
inductive Role
  | setup
  | renewal
  /-- To tear the cache down once its setup is over. -/
  | sealing
  | teardown
deriving DecidableEq

def Errand.role : Errand → Role
  | .setup _ => .setup
  | .renewal _ => .renewal

/-- What an activity has a cache in hand for once the cluster has answered. A renewal lets go of it. -/
def Errand.kept (id : CacheId) : Errand → Option (Role × CacheId)
  | .setup _ => some (.setup, id)
  | .renewal _ => none

def Errand.renews : Errand → Bool
  | .setup _ => false
  | .renewal _ => true

def Sequel.role : Sequel → Role
  | .release => .teardown
  | .renewal _ => .renewal

def Sequel.renews : Sequel → Bool
  | .release => false
  | .renewal _ => true

/-- Whether a chore occurs where all listeners are renewed. -/
def Chore.renews : Chore → Bool
  | .resubscribe _ | .conclude _ => true
  | _ => false

namespace Phase

/-- The cache that an activity has in hand in a phase, and what for. -/
def role : Phase → Option (Role × CacheId)
  | .requesting id errand | .awaiting id _ _ errand => some (errand.role, id)
  | .seeding id _ errand | .collecting id _ errand | .starting id errand => errand.kept id
  | .finishing _ id => some (.setup, id)
  | .sealing id => some (.sealing, id)
  | .detaching id sequel | .removing id _ _ sequel => some (sequel.role, id)
  | .releasing id => some (.teardown, id)
  | .free | .opening _ | .entering .. | .handing .. | .closing | .renewing => none

/-- The cache that an activity is at the entrance of the setup of. -/
def enters : Phase → Option CacheId
  | .entering _ id => some id
  | _ => none

/-- Whether a phase belongs to the renewal of a listener, or of all. -/
def renews : Phase → Bool
  | .requesting _ errand | .awaiting _ _ _ errand | .seeding _ _ errand | .collecting _ _ errand
  | .starting _ errand => errand.renews
  | .detaching _ sequel | .removing _ _ _ sequel => sequel.renews
  | .renewing => true
  | _ => false

end Phase

namespace Plan

def role (p : Plan) : Option (Role × CacheId) :=
  p.phase.role

def enters (p : Plan) : Option CacheId :=
  p.phase.enters

/-- The listener of a cache is still to be renewed. -/
def Intends (p : Plan) (id : CacheId) : Prop :=
  .resubscribe id ∈ p.tail

/-- Listeners are being renewed, or still to be. -/
def Renews (p : Plan) : Prop :=
  p.phase.renews ∨ ∃ id, p.Intends id

/-- The activity renews listeners and does nothing else. -/
def Plain (p : Plan) : Prop :=
  (p.phase = .free ∨ p.phase.renews) ∧ ∀ chore ∈ p.tail, chore.renews

@[simp]
theorem role_idle : idle.role = none :=
  rfl

@[simp]
theorem enters_idle : idle.enters = none :=
  rfl

@[simp]
theorem not_renews_idle : ¬idle.Renews := by
  rintro (⟨⟨⟩⟩ | ⟨id, ⟨⟩⟩)

end Plan

namespace Books

def title (b : Books) (id : CacheId) : Option String :=
  (b.face id).map Face.name

def stage (b : Books) (id : CacheId) : Option Setup :=
  (b.face id).map Face.setup

/-- A cache is in the directory. -/
def Lists (b : Books) (id : CacheId) : Prop :=
  ∃ name, b.entry name = some id

theorem title_changeFace (b : Books) (id other : CacheId) {change : Face → Face}
    (h : ∀ f, (change f).name = f.name) : (b.changeFace id change).title other = b.title other :=
  b.view_changeFace (Option.map Face.name) fun _ f => congrArg some (h f)

theorem stage_changeSetup (b : Books) (id : CacheId) (setup : Setup) (h : b.stage id ≠ none)
    (other : CacheId) : (b.changeFace id fun f => { f with setup := setup }).stage other =
      if other = id then some setup else b.stage other := by
  obtain ⟨f, hFace⟩ : ∃ f, b.face id = some f := by
    rw [← Option.ne_none_iff_exists']
    exact fun hNone => h (by rw [stage, hNone, Option.map_none])
  exact b.view_changeFace_eq (Option.map Face.setup) hFace other

theorem stage_finish {b : Books} {id : CacheId} (h : b.stage id ≠ none) :
    (b.changeFace id fun f => { f with setup := .finished }).stage id = some .finished :=
  (b.stage_changeSetup id .finished h id).trans (if_pos rfl)

theorem stage_changeFace_of_ne {b : Books} {id other : CacheId} {change : Face → Face}
    (h : other ≠ id ∨ b.stage id = none) :
    (b.changeFace id change).stage other = b.stage other := by
  by_cases hSame : other = id
  · subst hSame
    have hFace := Option.map_eq_none_iff.mp (h.resolve_left fun h => h rfl)
    simp [stage, changeFace, hFace]
  · exact b.view_changeFace (Option.map Face.setup) fun h => absurd h hSame

theorem stage_changeFace_of_same (b : Books) (id other : CacheId) {change : Face → Face}
    (h : ∀ f, (change f).setup = f.setup) :
    (b.changeFace id change).stage other = b.stage other :=
  b.view_changeFace (Option.map Face.setup) fun _ f => congrArg some (h f)

end Books

/-- Every cache has its own number, and the directory has it under its name. -/
structure Filed (b : Books) : Prop where
  numbered : ∀ id, b.title id ≠ none → id < b.nextCache
  named : ∀ name id, b.entry name = some id → b.title id = some name

namespace Filed

variable {b : Books} (h : Filed b)
include h

theorem entry_lt {name : String} {id : CacheId} (hEntry : b.entry name = some id) :
    id < b.nextCache :=
  h.numbered id (by simp [h.named name id hEntry])

/-- The number of the next cache is not taken. -/
theorem unknown : b.face b.nextCache = none := by
  by_contra hKnown
  refine Nat.lt_irrefl _ (h.numbered b.nextCache ?_)
  rwa [Books.title, Ne, Option.map_eq_none_iff]

/-- What is the same for a new cache as for an unknown one does not change when it is created. -/
theorem view_add {α : Type} (view : Option Face → α) {f : Face} (hFresh : view (some f) = view none)
    (other : CacheId) : view ((b.add f).face other) = view (b.face other) := by
  by_cases hSame : other = b.nextCache
  · rw [hSame, h.unknown, ← hFresh]
    simp [Books.add]
  · simp [Books.add, Function.update_of_ne hSame]

end Filed

theorem Books.lists_add {b : Books} {f : Face} (hEntry : b.entry f.name = none) (id : CacheId) :
    (b.add f).Lists id ↔ id = b.nextCache ∨ b.Lists id := by
  simp only [Lists, add, Function.update_apply]
  constructor
  · rintro ⟨name, h⟩
    split at h
    · exact .inl (Option.some.inj h).symm
    · exact .inr ⟨name, h⟩
  · rintro (rfl | ⟨name, h⟩)
    · exact ⟨f.name, if_pos rfl⟩
    · refine ⟨name, ?_⟩
      rw [if_neg]
      · exact h
      · rintro rfl
        cases hEntry.symm.trans h

theorem Filed.lists_takeOut {b : Books} (h : Filed b) {name : String} {id : CacheId}
    (hEntry : b.entry name = some id) (other : CacheId) :
    (b.takeOut name).Lists other ↔ other ≠ id ∧ b.Lists other := by
  simp only [Books.Lists, Books.takeOut, Function.update_apply]
  constructor
  · rintro ⟨name', h'⟩
    split at h'
    · cases h'
    next hName =>
      refine ⟨?_, name', h'⟩
      rintro rfl
      have hNamed := (h.named name' other h').symm.trans (h.named name other hEntry)
      exact hName (Option.some.inj hNamed)
  · rintro ⟨hOther, name', h'⟩
    refine ⟨name', ?_⟩
    rw [if_neg]
    · exact h'
    · rintro rfl
      exact hOther (Option.some.inj (h'.symm.trans hEntry))

variable {b b' : Books} {p p' : Plan} {plans plans' : Nat → Plan}

theorem Turn.titles (h : Turn b p b' p') :
    (b'.nextCache = b.nextCache ∧ (∀ id, b'.title id = b.title id) ∧
      ∀ name id, b'.entry name = some id → b.entry name = some id) ∨
    ∃ f, b.entry f.name = none ∧ b' = b.add f := by
  have hKept : ∀ {change : Face → Face} (id other : CacheId), (∀ f, (change f).name = f.name) →
      (b.changeFace id change).title other = b.title other :=
    fun id other hName => b.title_changeFace id other hName
  cases h
  case create name invalidates tail hOpen hEntry => exact .inr ⟨_, hEntry, rfl⟩
  case takeOut name id tail hEntry =>
    refine .inl ⟨rfl, fun _ => rfl, fun other id' h => ?_⟩
    simp only [Books.takeOut, Function.update_apply] at h
    split at h
    · cases h
    · exact h
  case enter | finish | sealPending | grant | refuse | detach | release =>
    exact .inl ⟨rfl, fun _ => hKept _ _ fun _ => rfl, fun _ _ h => h⟩
  all_goals exact .inl ⟨rfl, fun _ => rfl, fun _ _ h => h⟩

theorem Filed.keep (h : Filed b) (hNext : b'.nextCache = b.nextCache)
    (hTitle : ∀ id, b'.title id = b.title id)
    (hEntry : ∀ name id, b'.entry name = some id → b.entry name = some id) : Filed b' := by
  refine ⟨fun id hKnown => ?_, fun name id hEntry' => ?_⟩
  · rw [hNext]
    exact h.numbered id (hTitle id ▸ hKnown)
  · rw [hTitle]
    exact h.named name id (hEntry name id hEntry')

theorem Books.title_add (b : Books) (f : Face) (id : CacheId) :
    (b.add f).title id = if id = b.nextCache then some f.name else b.title id := by
  simp only [title, add, Function.update_apply]
  split <;> rfl

theorem Filed.add (h : Filed b) (f : Face) : Filed (b.add f) := by
  refine ⟨fun id hKnown => ?_, fun name id hEntry' => ?_⟩
  · rw [b.title_add] at hKnown
    split at hKnown
    next hSame => exact hSame ▸ Nat.lt_succ_self _
    · exact Nat.lt_succ_of_lt (h.numbered id hKnown)
  · rw [b.title_add]
    simp only [Books.add, Function.update_apply] at hEntry'
    split at hEntry'
    next hName =>
      cases hEntry'
      rw [if_pos rfl, hName]
    · rw [if_neg (Nat.ne_of_lt (h.entry_lt hEntry'))]
      exact h.named name id hEntry'

theorem Filed.turn (h : Filed b) (hTurn : Turn b p b' p') : Filed b' := by
  rcases hTurn.titles with ⟨hNext, hTitle, hEntry⟩ | ⟨f, -, rfl⟩
  · exact h.keep hNext hTitle hEntry
  · exact h.add f

/-- The directory, the setups of the caches and their numbering are the same. -/
structure SameCaches (b b' : Books) : Prop where
  lists : ∀ id, b'.Lists id ↔ b.Lists id := by exact fun _ => .rfl
  stage : ∀ id, b'.stage id = b.stage id := by exact fun _ => rfl
  next : b'.nextCache = b.nextCache := by rfl

/-- A change of a cache that is not about its setup. -/
theorem SameCaches.changeFace (b : Books) (id : CacheId) {change : Face → Face}
    (h : ∀ f, (change f).setup = f.setup) : SameCaches b (b.changeFace id change) where
  stage other := b.stage_changeFace_of_same id other h

theorem SameCaches.install (b : Books) (id : CacheId) (f : Face) (shape : EventShape) :
    SameCaches b (b.install id f shape) where
  stage other := b.stage_changeFace_of_same id other fun _ => rfl

theorem SameCaches.detach (b : Books) (id : CacheId) (subscription : Subscription) :
    SameCaches b (b.detach id subscription) where
  stage other := b.stage_changeFace_of_same id other fun _ => rfl

/-- What a turn does to the caches in hand, to their setups and to the directory. -/
inductive Passage (b : Books) (p : Plan) (b' : Books) (p' : Plan) : Prop
  | same (hLists : ∀ id, b'.Lists id ↔ b.Lists id) (hStage : ∀ id, b'.stage id = b.stage id)
      (hNext : b'.nextCache = b.nextCache)
      (hRole : p'.role = p.role ∨
        (p'.role = none ∧ ∀ r id, p.role = some (r, id) → r = .renewal ∨ r = .teardown))
      (hEnters : ∀ id, p.enters = some id → p'.enters = some id ∨ b.stage id ≠ some .pending)
  | create (hLists : ∀ id, b'.Lists id ↔ id = b.nextCache ∨ b.Lists id)
      (hStage : ∀ id, b'.stage id = if id = b.nextCache then some .pending else b.stage id)
      (hNext : b'.nextCache = b.nextCache + 1) (hRole : p.role = none ∧ p'.role = none)
      (hEnters : p.enters = none ∧ p'.enters = some b.nextCache)
  | enter (id : CacheId) (hLists : ∀ id, b'.Lists id ↔ b.Lists id)
      (hPending : b.stage id = some .pending)
      (hStage : ∀ other, b'.stage other = if other = id then some .running else b.stage other)
      (hNext : b'.nextCache = b.nextCache) (hRole : p.role = none ∧ p'.role = some (.setup, id))
      (hEnters : p.enters = some id)
  | finish (id : CacheId) (hLists : ∀ id, b'.Lists id ↔ b.Lists id)
      (hStage : b.stage id ≠ none → b'.stage id = some .finished)
      (hOthers : ∀ other, other ≠ id ∨ b.stage id = none → b'.stage other = b.stage other)
      (hNext : b'.nextCache = b.nextCache) (hRole : p.role = some (.setup, id) ∧ p'.role = none)
      (hEnters : p.enters = none)
  | takeOut (id : CacheId) (hListed : b.Lists id)
      (hLists : ∀ other, b'.Lists other ↔ other ≠ id ∧ b.Lists other)
      (hStage : ∀ id, b'.stage id = b.stage id) (hNext : b'.nextCache = b.nextCache)
      (hRole : p.role = none ∧ p'.role = some (.sealing, id)) (hEnters : p.enters = none)
  | sealed (id : CacheId) (hLists : ∀ id, b'.Lists id ↔ b.Lists id)
      (hSettled : b.stage id ≠ some .running)
      (hStage : b.stage id ≠ none → b'.stage id = some .finished)
      (hOthers : ∀ other, other ≠ id ∨ b.stage id = none → b'.stage other = b.stage other)
      (hNext : b'.nextCache = b.nextCache)
      (hRole : p.role = some (.sealing, id) ∧ p'.role = some (.teardown, id))
      (hEnters : p.enters = none)
  | renew (id : CacheId) (hSame : b' = b) (hRole : p.role = none ∧ p'.role = some (.renewal, id))
      (hEnters : p.enters = none) (hIntends : p.Intends id)

section Passages

variable {id : CacheId}

/-- A turn that leaves the caches alone, and its activity with the same cache in hand. -/
theorem SameCaches.passage (h : SameCaches b b') (hRole : p'.role = p.role)
    (hEnters : p.enters = none) : Passage b p b' p' :=
  .same h.lists h.stage h.next (.inl hRole) fun _ hNone => by cases hEnters.symm.trans hNone

/-- A turn that leaves the caches alone and ends a renewal or a teardown. -/
theorem SameCaches.passage_of_over {r : Role} (h : SameCaches b b') (hRole : p.role = some (r, id))
    (hOver : r = .renewal ∨ r = .teardown) (hNone : p'.role = none) (hEnters : p.enters = none) :
    Passage b p b' p' := by
  refine .same h.lists h.stage h.next (.inr ⟨hNone, fun r' id' h => ?_⟩) fun _ hNone => ?_
  · cases hRole.symm.trans h
    exact hOver
  · cases hEnters.symm.trans hNone

/-- The cluster has answered, and the activity lets go of the cache or sets it up. -/
theorem SameCaches.passage_of_answer (h : SameCaches b b') (errand : Errand)
    (hRole : p.role = some (errand.role, id)) (hKept : p'.role = errand.kept id)
    (hEnters : p.enters = none) : Passage b p b' p' := by
  cases errand with
  | setup name => exact h.passage (hKept.trans hRole.symm) hEnters
  | renewal seeds => exact h.passage_of_over hRole (.inl rfl) hKept hEnters

theorem Errand.role_next (errand : Errand) (id : CacheId) :
    (errand.next id).role = errand.kept id := by
  cases errand <;> rfl

theorem Errand.role_settling (errand : Errand) (id : CacheId) (limit : Duration) :
    (errand.settling id limit).role = errand.kept id := by
  rcases errand with name | _ | _ <;> rfl

theorem Errand.role_afterGrant (errand : Errand) (id : CacheId) (limit : Duration)
    (shape : EventShape) : (errand.afterGrant id limit shape).role = errand.kept id := by
  cases shape with
  | repairable => exact errand.role_settling id limit
  | legacy => exact errand.role_next id

theorem Sequel.role_next (sequel : Sequel) (id : CacheId) :
    (sequel.next id).role = some (sequel.role, id) := by
  cases sequel <;> rfl

theorem not_stage_of_settled {setup : Setup}
    (hSettled : ∀ f, b.face id = some f → f.setup = .finished) (h : setup ≠ .finished) :
    b.stage id ≠ some setup := by
  intro hStage
  obtain ⟨f, hFace, rfl⟩ := Option.map_eq_some_iff.mp hStage
  exact h (hSettled f hFace)

variable {name : String} {tail : List Chore}

theorem passage_create {f : Face} (hEntry : b.entry f.name = none) (hPending : f.setup = .pending) :
    Passage b ⟨.opening name, tail⟩ (b.add f) ⟨.entering name b.nextCache, tail⟩ := by
  refine .create (b.lists_add hEntry) (fun id => ?_) rfl ⟨rfl, rfl⟩ ⟨rfl, rfl⟩
  simp only [Books.stage, Books.add, Function.update_apply]
  split
  · rw [Option.map_some, hPending]
  · rfl

theorem passage_pass (hSettled : ∀ f, b.face id = some f → f.setup = .finished) :
    Passage b ⟨.entering name id, tail⟩ b ⟨.handing name id, tail⟩ := by
  refine .same (fun _ => .rfl) (fun _ => rfl) rfl (.inl rfl) ?_
  rintro other ⟨⟩
  exact .inr (not_stage_of_settled hSettled (by decide))

theorem passage_enter {f : Face} (hFace : b.face id = some f) (hPending : f.setup = .pending) :
    Passage b ⟨.entering name id, tail⟩ (b.changeFace id fun f => { f with setup := .running })
      ⟨if f.invalidates then .requesting id (.setup name) else .finishing name id, tail⟩ := by
  refine .enter id (fun _ => .rfl) ?_ (b.view_changeFace_eq (Option.map Face.setup) hFace) rfl
    ⟨rfl, ?_⟩ rfl
  · rw [Books.stage, hFace, Option.map_some, hPending]
  · cases f.invalidates <;> rfl

theorem passage_sealNone (hSettled : ∀ f, b.face id = some f → f.setup = .finished) :
    Passage b ⟨.sealing id, tail⟩ b ⟨.detaching id .release, tail⟩ := by
  refine .sealed id (fun _ => .rfl) (not_stage_of_settled hSettled (by decide)) (fun hKnown => ?_)
    (fun _ _ => rfl) rfl ⟨rfl, rfl⟩ rfl
  obtain ⟨setup, hSetup⟩ := Option.ne_none_iff_exists'.mp hKnown
  obtain ⟨f, hFace, rfl⟩ := Option.map_eq_some_iff.mp hSetup
  rw [hSetup, hSettled f hFace]

theorem passage_sealPending {f : Face} (hFace : b.face id = some f) (hPending : f.setup = .pending) :
    Passage b ⟨.sealing id, tail⟩ (b.changeFace id fun f => { f with setup := .finished })
      ⟨.detaching id .release, tail⟩ := by
  refine .sealed id (fun _ => .rfl) ?_ Books.stage_finish (fun _ => Books.stage_changeFace_of_ne)
    rfl ⟨rfl, rfl⟩ rfl
  simp [Books.stage, hFace, hPending]

end Passages

theorem Turn.passage (hFiled : Filed b) (h : Turn b p b' p') : Passage b p b' p' := by
  cases h
  case create hOpen hEntry => exact passage_create hEntry rfl
  case pass hSettled => exact passage_pass hSettled
  case enter hFace hPending => exact passage_enter hFace hPending
  case finish name id tail =>
    exact .finish id (fun _ => .rfl) Books.stage_finish (fun _ => Books.stage_changeFace_of_ne) rfl
      ⟨rfl, rfl⟩ rfl
  case takeOut name id tail hEntry =>
    exact .takeOut id ⟨name, hEntry⟩ (hFiled.lists_takeOut hEntry) (fun _ => rfl) rfl ⟨rfl, rfl⟩ rfl
  case sealNone hSettled => exact passage_sealNone hSettled
  case sealPending hFace hPending => exact passage_sealPending hFace hPending
  case renew id f tail hFace hTracked => exact .renew id rfl ⟨rfl, rfl⟩ rfl (.head _)
  case release id tail =>
    have hSame : SameCaches b (b.changeFace id fun f => { f with pushUnavailable := false }) :=
      .changeFace b id fun _ => rfl
    exact hSame.passage_of_over (r := .teardown) rfl (.inr rfl) rfl rfl
  -- The cluster has answered a request for a listener, or was not asked.
  case grant id shape due errand f limit tail hFace hGranted =>
    exact (SameCaches.install b id f shape).passage_of_answer errand rfl
      (errand.role_afterGrant id limit shape) rfl
  case refuse id shape due errand limit tail hKnown hRefused =>
    have hSame : SameCaches b (b.changeFace id fun f => { f with pushUnavailable := true }) :=
      .changeFace b id fun _ => rfl
    exact hSame.passage_of_answer errand rfl (errand.role_settling id limit) rfl
  case requestNone id errand tail hNone =>
    exact SameCaches.passage_of_answer {} errand rfl (errand.role_next id) rfl
  case awaitNone id shape due errand tail hNone =>
    exact SameCaches.passage_of_answer {} errand rfl (errand.role_next id) rfl
  -- The others keep the same cache in hand, or none.
  case staffed id errand w tail hRunning hAlive => exact SameCaches.passage {} (errand.role_next id) rfl
  case hire id errand tail hVacant => exact SameCaches.passage {} (errand.role_next id) rfl
  case detachNone id sequel tail hNone => exact SameCaches.passage {} (sequel.role_next id) rfl
  case remove id name registration sequel tail =>
    exact SameCaches.passage {} (sequel.role_next id) rfl
  case detach id sequel f subscription tail hFace hHeld =>
    exact (SameCaches.detach b id subscription).passage rfl rfl
  all_goals exact SameCaches.passage {} rfl rfl

section Renewals

theorem Errand.renews_next (errand : Errand) (id : CacheId) : (errand.next id).renews = false := by
  cases errand <;> rfl

theorem Errand.next_of_renews {errand : Errand} (h : errand.renews) (id : CacheId) :
    errand.next id = .free := by
  cases errand with
  | setup name => cases h
  | renewal seeds => rfl

theorem Errand.renews_settling (errand : Errand) (id : CacheId) (limit : Duration) :
    (errand.settling id limit).renews = errand.renews := by
  rcases errand with name | _ | _ <;> rfl

theorem Sequel.renews_next (sequel : Sequel) (id : CacheId) :
    (sequel.next id).renews = sequel.renews := by
  cases sequel <;> rfl

/-- A phase of renewing begins where the renewal was intended. -/
theorem Turn.renews_phase (h : Turn b p b' p') (hRenews : p'.phase.renews) :
    p.phase.renews ∨ ∃ id, p.Intends id := by
  have hNext {errand : Errand} {id : CacheId} (h : (errand.next id).renews) : False := by
    cases (errand.renews_next id).symm.trans h
  cases h
  case renew id f tail hFace hTracked => exact .inr ⟨id, .head _⟩
  case renewAll => cases hRenews
  case enter name id f tail hFace hPending =>
    have hSetup : (if f.invalidates then Phase.requesting id (.setup name)
        else .finishing name id).renews = false := by
      cases f.invalidates <;> rfl
    cases hSetup.symm.trans hRenews
  case requestNone | awaitNone | staffed | hire => exact (hNext hRenews).elim
  case grant id shape due errand f limit tail hFace hGranted =>
    cases shape with
    | repairable => exact .inl ((errand.renews_settling id limit).symm.trans hRenews)
    | legacy => exact (hNext hRenews).elim
  case refuse id shape due errand limit tail hKnown hRefused =>
    exact .inl ((errand.renews_settling id limit).symm.trans hRenews)
  case detachNone id sequel tail hNone => exact .inl ((sequel.renews_next id).symm.trans hRenews)
  case remove id name registration sequel tail => exact .inl ((sequel.renews_next id).symm.trans hRenews)
  all_goals exact .inl hRenews

/-- Only caches in the directory come to be renewed. -/
theorem Turn.intends (h : Turn b p b' p') {id : CacheId} (hIntends : p'.Intends id) :
    p.Intends id ∨ (p.phase = .renewing ∧ b.Lists id) := by
  unfold Plan.Intends at hIntends ⊢
  cases h
  case renewAll ids tail hIds =>
    rcases List.mem_append.mp hIntends with hm | hm
    · obtain ⟨other, hm, hSame⟩ := List.mem_map.mp hm
      cases hSame
      exact .inr ⟨rfl, hIds _ hm⟩
    · exact .inl (by simpa using hm)
  case renewNone | renew => exact .inl (.tail _ hIntends)
  all_goals exact .inl (by simpa using hIntends)

/-- An activity that renews no listeners does not come to do so. -/
theorem Turn.renews (h : Turn b p b' p') (hRenews : p'.Renews) : p.Renews := by
  rcases hRenews with hPhase | ⟨id, hIntends⟩
  · exact h.renews_phase hPhase
  · rcases h.intends hIntends with hBefore | ⟨hPhase, -⟩
    · exact .inr ⟨id, hBefore⟩
    · exact .inl (by rw [hPhase]; rfl)

/-- A renewal goes through its phases, and is then free for the next one. -/
theorem Turn.plain_phase (h : Turn b p b' p') (hPlain : p.Plain) :
    p'.phase = .free ∨ p'.phase.renews := by
  obtain ⟨hPhase, hTail⟩ := hPlain
  cases h
  case request | seed | seedNone | collect | collected | detach =>
    exact .inr (hPhase.resolve_left nofun)
  case requestNone errand _ _ | awaitNone errand _ _ | staffed errand _ _ _ _ | hire errand _ _ =>
    exact .inl (Errand.next_of_renews (hPhase.resolve_left nofun) _)
  case grant id shape due errand f limit tail hFace hGranted =>
    have hRenews : errand.renews := hPhase.resolve_left nofun
    cases shape with
    | repairable => exact .inr ((errand.renews_settling id limit).trans hRenews)
    | legacy => exact .inl (errand.next_of_renews hRenews id)
  case refuse id shape due errand limit tail hKnown hRefused =>
    exact .inr ((errand.renews_settling id limit).trans (hPhase.resolve_left nofun))
  case detachNone id sequel tail hNone =>
    exact .inr ((sequel.renews_next id).trans (hPhase.resolve_left nofun))
  case remove id name registration sequel tail =>
    exact .inr ((sequel.renews_next id).trans (hPhase.resolve_left nofun))
  case renew => exact .inr rfl
  case takeOut => cases hTail _ (.head _)
  case renewAll | destroyAll | destroyNone | stopNone | stop | reap | renewNone | conclude =>
    exact .inl rfl
  -- The others begin in phases that are no part of a renewal.
  all_goals rcases hPhase with h | h <;> cases h

/-- An activity that only renews listeners never comes to do anything else. -/
theorem Turn.plain (h : Turn b p b' p') (hPlain : p.Plain) : p'.Plain := by
  refine ⟨h.plain_phase hPlain, ?_⟩
  obtain ⟨hPhase, hTail⟩ := hPlain
  cases h
  case retract | close | release => rcases hPhase with h | h <;> cases h
  case destroyAll | stop => cases hTail _ (.head _)
  case renewAll ids tail hIds =>
    intro chore hm
    rcases List.mem_append.mp hm with hm | hm
    · obtain ⟨id, -, rfl⟩ := List.mem_map.mp hm
      rfl
    · rcases List.mem_cons.mp hm with rfl | hm
      · rfl
      · exact hTail chore hm
  case destroyNone | takeOut | stopNone | reap | renewNone | renew | conclude =>
    exact fun chore hm => hTail chore (.tail _ hm)
  all_goals exact hTail

end Renewals

/-- Every cache is in at most one activity's hands, and in such as fit its setup and its place.
Renewals are left out of account. -/
structure Owned (b : Books) (plans : Nat → Plan) : Prop where
  known : ∀ id, b.Lists id → b.stage id ≠ none
  setup : ∀ i id, (plans i).role = some (.setup, id) → b.stage id = some .running
  setupOnce : ∀ i j id, (plans i).role = some (.setup, id) → (plans j).role = some (.setup, id) →
    i = j
  leaving : ∀ i id r, (plans i).role = some (r, id) → r = .sealing ∨ r = .teardown →
    b.stage id ≠ none ∧ ¬b.Lists id
  leavingOnce : ∀ i j id r r', (plans i).role = some (r, id) → (plans j).role = some (r', id) →
    r = .sealing ∨ r = .teardown → r' = .sealing ∨ r' = .teardown → i = j
  torn : ∀ i id, (plans i).role = some (.teardown, id) → b.stage id = some .finished
  dropped : ∀ id, b.stage id ≠ none → ¬b.Lists id →
    b.stage id = some .finished ∨ ∃ i, (plans i).role = some (.sealing, id)
  pending : ∀ id, b.stage id = some .pending → b.Lists id → ∃ i, (plans i).enters = some id
  running : ∀ id, b.stage id = some .running → ∃ i, (plans i).role = some (.setup, id)

/-- Renewals leave the other activities undisturbed: they take and ask for listeners of caches in the
directory only that are set up, no two of them for one cache, and they start no worker for a client
that is closed and has no caches left. -/
structure Undisturbed (b : Books) (plans : Nat → Plan) : Prop where
  listed : ∀ i id, (plans i).role = some (.renewal, id) → b.Lists id
  finished : ∀ i id, (plans i).role = some (.renewal, id) → b.stage id = some .finished
  once : ∀ i j id, (plans i).role = some (.renewal, id) → (plans j).role = some (.renewal, id) →
    i = j
  staffed : b.closed = true → ∀ i id seeds, (plans i).phase = .starting id (.renewal seeds) →
    ∃ other, b.Lists other

variable {i : Nat}

section Preservation

variable (h : Owned b plans) (hOthers : ∀ j, j ≠ i → plans' j = plans j)

theorem Owned.known_of_passage (h : Owned b plans) (hPassage : Passage b p b' p') :
    ∀ id, b'.Lists id → b'.stage id ≠ none := by
  have hKnown := h.known
  cases hPassage <;> grind

include h hOthers

theorem Owned.setup_of_passage (hPassage : Passage b (plans i) b' (plans' i))
    (hFresh : b.stage b.nextCache = none) :
    ∀ j id, (plans' j).role = some (.setup, id) → b'.stage id = some .running := by
  have hSetup := h.setup
  have hOnce := h.setupOnce
  cases hPassage <;> grind

theorem Owned.setupOnce_of_passage (hPassage : Passage b (plans i) b' (plans' i)) :
    ∀ j k id, (plans' j).role = some (.setup, id) → (plans' k).role = some (.setup, id) →
      j = k := by
  have hSetup := h.setup
  have hOnce := h.setupOnce
  cases hPassage <;> grind

theorem Owned.leaving_of_passage (hPassage : Passage b (plans i) b' (plans' i))
    (hFresh : b.stage b.nextCache = none) :
    ∀ j id r, (plans' j).role = some (r, id) → r = .sealing ∨ r = .teardown →
      b'.stage id ≠ none ∧ ¬b'.Lists id := by
  have hLeaving := h.leaving
  have hKnown := h.known
  cases hPassage <;> grind

theorem Owned.leavingOnce_of_passage (hPassage : Passage b (plans i) b' (plans' i)) :
    ∀ j k id r r', (plans' j).role = some (r, id) → (plans' k).role = some (r', id) →
      r = .sealing ∨ r = .teardown → r' = .sealing ∨ r' = .teardown → j = k := by
  have hLeaving := h.leaving
  have hOnce := h.leavingOnce
  cases hPassage <;> grind

theorem Owned.torn_of_passage (hPassage : Passage b (plans i) b' (plans' i))
    (hFresh : b.stage b.nextCache = none) :
    ∀ j id, (plans' j).role = some (.teardown, id) → b'.stage id = some .finished := by
  have hTorn := h.torn
  have hLeaving := h.leaving
  cases hPassage <;> grind

theorem Owned.dropped_of_passage (hPassage : Passage b (plans i) b' (plans' i)) :
    ∀ id, b'.stage id ≠ none → ¬b'.Lists id →
      b'.stage id = some .finished ∨ ∃ j, (plans' j).role = some (.sealing, id) := by
  have hDropped := h.dropped
  have hKnown := h.known
  have hSetup := h.setup
  cases hPassage <;> grind

theorem Owned.pending_of_passage (hPassage : Passage b (plans i) b' (plans' i)) :
    ∀ id, b'.stage id = some .pending → b'.Lists id → ∃ j, (plans' j).enters = some id := by
  have hPending := h.pending
  cases hPassage <;> grind

theorem Owned.running_of_passage (hPassage : Passage b (plans i) b' (plans' i)) :
    ∀ id, b'.stage id = some .running → ∃ j, (plans' j).role = some (.setup, id) := by
  have hRunning := h.running
  have hSetup := h.setup
  cases hPassage <;> grind

end Preservation

theorem Owned.turn (h : Owned b plans) (hFiled : Filed b) (hTurn : Turn b (plans i) b' (plans' i))
    (hOthers : ∀ j, j ≠ i → plans' j = plans j) : Owned b' plans' := by
  have hPassage := hTurn.passage hFiled
  have hFresh : b.stage b.nextCache = none := by rw [Books.stage, hFiled.unknown, Option.map_none]
  exact {
    known := h.known_of_passage hPassage
    setup := h.setup_of_passage hOthers hPassage hFresh
    setupOnce := h.setupOnce_of_passage hOthers hPassage
    leaving := h.leaving_of_passage hOthers hPassage hFresh
    leavingOnce := h.leavingOnce_of_passage hOthers hPassage
    torn := h.torn_of_passage hOthers hPassage hFresh
    dropped := h.dropped_of_passage hOthers hPassage
    pending := h.pending_of_passage hOthers hPassage
    running := h.running_of_passage hOthers hPassage }

theorem Owned.begin (h : Owned b plans) (operation : Operation) (hOver : plans i = .idle)
    (hBegun : plans' i = operation.plan) (hOthers : ∀ j, j ≠ i → plans' j = plans j) :
    Owned b plans' := by
  have hRole : operation.plan.role = none := by cases operation <;> rfl
  obtain ⟨hKnown, hSetup, hSetupOnce, hLeaving, hLeavingOnce, hTorn, hDropped, hPending,
    hRunning⟩ := h
  constructor <;> grind [Plan.role_idle, Plan.enters_idle]

end NearCache
