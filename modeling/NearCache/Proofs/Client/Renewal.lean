import Mathlib.Tactic.SplitIfs
import NearCache.Proofs.Client.Books

/-!
The renewal of all listeners, seen from one cache. An action that speaks of other caches spares this
one. Those that speak of it let go of its listener and ask for a new one, and if the cache is
coherent then, they collect the reports of all members on its name and seed it with them.
-/

namespace NearCache

namespace Action

/-- An action in the course of a renewal of listeners. -/
def Renews : Action → Prop
  | .resubscribe _ | .unsubscribe _ | .subscribe _ (.settle _) | .awaitListener _ _ _ (.settle _)
  | .awaitRemoval _ _ | .seed _ _ | .awaitSeed _ _ | .startWorker | .conclude .done => True
  | _ => False

/-- The actions that speak of a cache. -/
def about (id : CacheId) (todo : List Action) : List Action :=
  todo.filter fun action => id ∈ action.mentions

section About

variable {id : CacheId} {action : Action} {todo : List Action}

theorem about_append (id : CacheId) (todo more : List Action) :
    about id (todo ++ more) = about id todo ++ about id more :=
  List.filter_append _ _

theorem about_of_spared (h : ∀ a ∈ todo, id ∉ a.mentions) : about id todo = [] :=
  List.filter_eq_nil_iff.mpr fun a hm => by simpa using h a hm

theorem about_cons_of_mem (h : id ∈ action.mentions) :
    about id (action :: todo) = action :: about id todo :=
  List.filter_cons_of_pos (by simpa using h)

theorem about_cons_of_not_mem (h : id ∉ action.mentions) :
    about id (action :: todo) = about id todo :=
  List.filter_cons_of_neg (by simpa using h)

end About

end Action

/-- An action leads to a client and to what is left of the action, unless a fault stops it. -/
def Progress.Leads (P : Client → List Action → Prop) : Progress → Prop
  | .waiting s action => P s [action]
  | .moved s todo _ => P s todo
  | .stopped _ _ => True

theorem Progress.Leads.imp {P P' : Client → List Action → Prop} {progress : Progress}
    (h : progress.Leads P) (hImp : ∀ s todo, P s todo → P' s todo) : progress.Leads P' := by
  cases progress with
  | waiting s action => exact hImp s [action] h
  | moved s todo outcome => exact hImp s todo h
  | stopped s fault => trivial

namespace Client

section Spared

variable (s : Client) (me : ActivityId) {id : CacheId}

/-- What becomes of an action spares a cache: it is left alone, and nothing that is left to do speaks
of it. -/
def Spares (id : CacheId) : Progress → Prop :=
  Progress.Leads fun s' todo =>
    s'.caches[id]? = s.caches[id]? ∧ ∀ a ∈ todo, a.Renews ∧ id ∉ a.mentions

variable {s}

theorem spares_moved {s' : Client} {todo : List Action} {outcome : Option Outcome}
    (hCache : s'.caches[id]? = s.caches[id]?) (hTodo : ∀ a ∈ todo, a.Renews ∧ id ∉ a.mentions) :
    s.Spares id (.moved s' todo outcome) :=
  ⟨hCache, hTodo⟩

theorem spares_nil {s' : Client} {outcome : Option Outcome}
    (hCache : s'.caches[id]? = s.caches[id]?) : s.Spares id (.moved s' [] outcome) :=
  spares_moved hCache fun _ hm => absurd hm List.not_mem_nil

variable {other : CacheId} (hNe : id ≠ other)

include hNe

theorem spares_resubscribe : s.Spares id (s.resubscribe other) := by
  unfold resubscribe
  cases s.caches[other]? with
  | none => exact spares_nil rfl
  | some cache =>
      dsimp only
      split_ifs
      · refine spares_moved rfl ?_
        simp [Action.Renews, Action.mentions, hNe]
      · exact spares_nil rfl

theorem spares_unsubscribe : s.Spares id (s.unsubscribe other) := by
  unfold unsubscribe
  cases (s.caches[other]?).bind Cache.subscription with
  | none => exact spares_nil rfl
  | some subscription =>
      have hCache := s.getElem?_modifyCache_of_ne id other Cache.dropSubscription hNe
      dsimp only
      split_ifs <;> exact spares_moved hCache (by simp [Action.Renews, Action.mentions])

theorem spares_subscribe (seed : Bool) : s.Spares id (s.subscribe other (.settle seed)) := by
  unfold subscribe
  cases s.caches[other]? with
  | none => exact spares_nil rfl
  | some cache => exact spares_moved rfl (by simp [Action.Renews, Action.mentions, hNe])

theorem settleActions_spare (seed : Bool) :
    ∀ a ∈ s.settleActions other seed, a.Renews ∧ id ∉ a.mentions := by
  cases seed <;> simp [settleActions, Action.Renews, Action.mentions, hNe]

theorem spares_awaitListener (shape : EventShape) (seed : Bool) :
    s.Spares id (s.awaitListener other shape (.settle seed)) := by
  unfold awaitListener
  cases s.caches[other]? with
  | none => exact spares_nil rfl
  | some cache =>
      dsimp only
      generalize listenerResult cache shape _ _ = result
      cases result with
      | error e =>
          exact spares_moved (s.getElem?_modifyCache_of_ne id other _ hNe)
            (settleActions_spare hNe seed)
      | ok subscription =>
          obtain ⟨name, registration, shape⟩ := subscription
          have hCache (change : Cache → Cache) := s.getElem?_modifyCache_of_ne id other change hNe
          cases shape with
          | repairable =>
              exact spares_moved (hCache (·.installSubscription ⟨name, registration, .repairable⟩))
                (settleActions_spare hNe seed)
          | legacy =>
              exact spares_nil (hCache fun cache =>
                (cache.installSubscription ⟨name, registration, .legacy⟩).downgrade)

theorem spares_seed (limit : Duration) : s.Spares id (s.seed other limit) := by
  unfold seed
  cases s.caches[other]? with
  | none => exact spares_nil rfl
  | some cache =>
      dsimp only
      split
      · exact spares_moved rfl (by simp [Action.Renews, Action.mentions, hNe])
      · trivial

theorem spares_awaitSeed (round : Round) :
    s.Spares id (s.act me (.awaitSeed other round)) := by
  unfold act awaitRound
  dsimp only
  split
  · trivial
  next round' _ =>
    split_ifs
    · exact spares_nil (s.getElem?_modifyCache_of_ne id other _ hNe)
    · refine ⟨rfl, ?_⟩
      simp [Action.Renews, Action.mentions, hNe]

omit hNe

theorem spares_awaitRemoval (request : Request) (lost : Bool) :
    s.Spares id (s.awaitRemoval request lost) := by
  unfold awaitRemoval
  split_ifs <;> exact spares_nil rfl

theorem spares_startWorker (outcome : Option Outcome) :
    s.Spares id (.moved s.startWorker.1 [] outcome) := by
  refine spares_nil ?_
  unfold startWorker
  split_ifs <;> rfl

/-- In the course of a renewal, an action that does not speak of a cache spares it. -/
theorem spares_perform {action : Action} (hRenews : action.Renews) (hOther : id ∉ action.mentions) :
    s.Spares id (s.perform me action) := by
  unfold perform
  split_ifs with hReady
  · cases action with
    | resubscribe other => exact spares_resubscribe (by simpa [Action.mentions] using hOther)
    | unsubscribe other => exact spares_unsubscribe (by simpa [Action.mentions] using hOther)
    | subscribe other followUp =>
        cases followUp with
        | report => exact hRenews.elim
        | settle seed => exact spares_subscribe (by simpa [Action.mentions] using hOther) seed
    | awaitListener other shape due followUp =>
        cases followUp with
        | report => exact hRenews.elim
        | settle seed =>
            exact spares_awaitListener (by simpa [Action.mentions] using hOther) shape seed
    | awaitRemoval request lost => exact spares_awaitRemoval request lost
    | seed other limit => exact spares_seed (by simpa [Action.mentions] using hOther) limit
    | awaitSeed other round =>
        exact spares_awaitSeed me (by simpa [Action.mentions] using hOther) round
    | startWorker => exact spares_startWorker _
    | conclude outcome => exact spares_nil rfl
    | _ => exact hRenews.elim
  · have hSame : s.lineUp me action = s := by
      cases action <;> first | rfl | exact hRenews.elim
    rw [hSame]
    refine ⟨rfl, fun a hm => ?_⟩
    rw [List.mem_singleton.mp hm]
    exact ⟨hRenews, hOther⟩

end Spared

end Client

/-- How far the renewal of a cache has come that was not coherent before: what the books say of it,
and what is left to do that speaks of it. -/
inductive Renewing (id : CacheId) (asked : String → Round → Prop) (f : Face) : List Action → Prop
  | ahead (hInvalidates : f.invalidates = true) (hBefore : f.isCoherent = false) :
      Renewing id asked f [.resubscribe id]
  | leaving : Renewing id asked f [.unsubscribe id, .subscribe id (.settle true)]
  | asking (hVacant : f.subscription = none) : Renewing id asked f [.subscribe id (.settle true)]
  | awaiting (shape : EventShape) (due : Nat) (hVacant : f.subscription = none) :
      Renewing id asked f [.awaitListener id shape due (.settle true)]
  | seeding (limit : Duration) (hCoherent : f.isCoherent = true) :
      Renewing id asked f [.seed id limit]
  | collecting (round : Round) (hCoherent : f.isCoherent = true) (hAsked : asked f.name round) :
      Renewing id asked f [.awaitSeed id round]
  | legacy (hMode : f.mode = .legacy) : Renewing id asked f []

theorem Renewing.imp {id : CacheId} {asked asked' : String → Round → Prop} {f : Face}
    {todo : List Action} (h : Renewing id asked f todo)
    (hImp : ∀ name round, asked name round → asked' name round) : Renewing id asked' f todo := by
  cases h with
  | ahead hInvalidates hBefore => exact .ahead hInvalidates hBefore
  | leaving => exact .leaving
  | asking hVacant => exact .asking hVacant
  | awaiting shape due hVacant => exact .awaiting shape due hVacant
  | seeding limit hCoherent => exact .seeding limit hCoherent
  | collecting round hCoherent hAsked => exact .collecting round hCoherent (hImp _ _ hAsked)
  | legacy hMode => exact .legacy hMode

section Course

variable {id : CacheId} {asked : String → Round → Prop} {f : Face} {todo : List Action}

theorem Renewing.renews (h : Renewing id asked f todo) : ∀ a ∈ todo, a.Renews := by
  cases h <;> simp [Action.Renews]

/-- Nothing in the course of a cache speaks of another one. -/
theorem Renewing.about_eq (h : Renewing id asked f todo) : Action.about id todo = todo := by
  cases h <;> simp [Action.about, Action.mentions]

end Course

namespace Client

section Courses

variable {s : Client} (me : ActivityId) {id : CacheId} {asked : String → Round → Prop} {c : Cache}
  (hCache : s.caches[id]? = some c)

/-- What becomes of an action brings the renewal of a cache on, with this left to do later on. -/
def Furthers (id : CacheId) (asked : String → Round → Prop) (later : List Action) :
    Progress → Prop :=
  Progress.Leads fun s' todo => ∃ c', s'.caches[id]? = some c' ∧ (∀ a ∈ todo, a.Renews) ∧
    Renewing id asked c'.face (Action.about id todo ++ later)

/-- What is left to do is the next stage of the renewal. -/
theorem furthers_moved {s' : Client} {todo : List Action} {outcome : Option Outcome}
    (hCache : s'.caches[id]? = some c) (hCourse : Renewing id asked c.face todo) :
    Furthers id asked [] (.moved s' todo outcome) := by
  refine ⟨c, hCache, hCourse.renews, ?_⟩
  rwa [hCourse.about_eq, List.append_nil]

include hCache

theorem furthers_resubscribe (hInvalidates : c.config.invalidateOnChange = true)
    (hBefore : c.isCoherent = false) : Furthers id asked [] (s.resubscribe id) := by
  simp only [resubscribe, hCache, hInvalidates, if_true, hBefore]
  exact furthers_moved hCache .leaving

theorem furthers_unsubscribe :
    Furthers id asked [.subscribe id (.settle true)] (s.unsubscribe id) := by
  unfold unsubscribe
  rw [hCache, Option.bind_some]
  cases hSubscription : c.subscription with
  | none => exact ⟨c, hCache, by simp, .asking hSubscription⟩
  | some subscription =>
      have hDropped := getElem?_modifyCache_self hCache Cache.dropSubscription
      have hAsking : Renewing id asked c.dropSubscription.face [.subscribe id (.settle true)] :=
        .asking rfl
      have hAbout (lost : Bool) (request : Request) :
          Action.about id [.awaitRemoval request lost] = [] := by
        simp [Action.about, Action.mentions]
      dsimp only
      split_ifs <;>
        exact ⟨_, hDropped, by simp [Action.Renews], by rwa [hAbout, List.nil_append]⟩

theorem furthers_subscribe (hVacant : c.subscription = none) :
    Furthers id asked [] (s.subscribe id (.settle true)) := by
  simp only [subscribe, hCache]
  exact furthers_moved hCache (.awaiting _ _ hVacant)

theorem furthers_awaitListener (shape : EventShape) (hVacant : c.subscription = none) :
    Furthers id asked [] (s.awaitListener id shape (.settle true)) := by
  simp only [awaitListener, hCache]
  generalize listenerResult c shape _ _ = result
  generalize (s.cluster.answer _).1 = cluster
  have hModified := getElem?_modifyCache_self hCache
  have hSettled {s' : Client} {c' : Cache} (hCache' : s'.caches[id]? = some c')
      (hCoherent : c'.face.isCoherent = true) (limit : Duration) :
      Furthers id asked [] (.moved s' [.seed id limit, .startWorker] none) := by
    have hSeeding : Renewing id asked c'.face [.seed id limit] := .seeding limit hCoherent
    refine ⟨c', hCache', by simp [Action.Renews], ?_⟩
    simpa [Action.about, Action.mentions] using hSeeding
  cases result with
  | error e =>
      refine hSettled (hModified Cache.markPushUnavailable) ?_ _
      simp [Cache.face, Face.isCoherent, Face.mode, Cache.markPushUnavailable, hVacant]
  | ok subscription =>
      obtain ⟨name, registration, shape⟩ := subscription
      cases shape with
      | repairable =>
          exact hSettled (hModified (·.installSubscription ⟨name, registration, .repairable⟩)) rfl _
      | legacy =>
          have hInstalled := hModified fun cache =>
            (cache.installSubscription ⟨name, registration, .legacy⟩).downgrade
          exact furthers_moved hInstalled (.legacy rfl)

theorem furthers_seed (limit : Duration) (hCoherent : c.isCoherent = true)
    (hAsked : ∀ round, (s.cluster.beginRound s.now [c.name] limit).2 = .ok round →
      asked c.name round) : Furthers id asked [] (s.seed id limit) := by
  simp only [seed, hCache]
  split
  next round hBegun =>
    exact furthers_moved hCache (.collecting round hCoherent (hAsked round hBegun))
  · trivial

/-- Whatever the cache is in the middle of, short of waiting for reports, brings its renewal on. -/
theorem furthers_perform {action : Action} {later : List Action}
    (hCourse : Renewing id asked c.face (action :: later))
    (hNot : ∀ round, action ≠ .awaitSeed id round)
    (hAsked : ∀ limit round, action = .seed id limit →
      (s.cluster.beginRound s.now [c.name] limit).2 = .ok round → asked c.name round) :
    Furthers id asked later (s.perform me action) := by
  cases hCourse with
  | ahead hInvalidates hBefore => exact furthers_resubscribe hCache hInvalidates hBefore
  | leaving => exact furthers_unsubscribe hCache
  | asking hVacant => exact furthers_subscribe hCache hVacant
  | awaiting shape due hVacant =>
      unfold perform
      split_ifs
      · exact furthers_awaitListener hCache shape hVacant
      · have hStill : Furthers id asked []
            (.moved s [.awaitListener id shape due (.settle true)] none) :=
          furthers_moved hCache (.awaiting shape due hVacant)
        exact hStill
  | seeding limit hCoherent =>
      exact furthers_seed hCache limit hCoherent fun round => hAsked limit round rfl
  | collecting round hCoherent => exact absurd rfl (hNot round)

omit hCache

/-- A caller that waits for reports goes on waiting, or seeds the cache with them when all are
there. -/
theorem perform_awaitSeed (round : Round) :
    (s.perform me (.awaitSeed id round)).Leads fun s' todo =>
      (s' = s ∧ ∃ later, (later = round ∨ round.poll s.cluster s.now = .ok later) ∧
        todo = [.awaitSeed id later]) ∨
      (todo = [] ∧ ∃ last, round.poll s.cluster s.now = .ok last ∧ last.isDone = true ∧
        s' = s.modifyCache id (·.seed last.reports)) := by
  unfold perform
  split_ifs
  · unfold act awaitRound
    dsimp only
    split
    · trivial
    next later hPolled =>
      split_ifs with hDone
      · exact .inr ⟨rfl, later, hPolled, hDone, rfl⟩
      · exact .inl ⟨rfl, later, .inr hPolled, rfl⟩
  · exact .inl ⟨rfl, round, .inl rfl, rfl⟩

end Courses

end Client

end NearCache
