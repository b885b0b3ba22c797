import Mathlib.Logic.Function.Basic
import Mathlib.Tactic.SplitIfs
import NearCache.Client.Step
import NearCache.Proofs.Cluster.Round

/-!
The books of a client: what its caches, its directory, the cluster's registrations and bindings and
the workers come to when only listeners and reconciliation are at stake. Reports, events, gap repair
and the passage of time leave them as they are.
-/

namespace NearCache

/-- What the books say of a cache. -/
structure Face where
  name : String
  invalidates : Bool
  subscription : Option Subscription
  pushUnavailable : Bool
  setup : Setup
deriving DecidableEq

namespace Face

def mode (f : Face) : CoherenceMode :=
  match f.subscription.map Subscription.shape with
  | some .repairable => .repairable
  | some .legacy => .legacy
  | none => if f.pushUnavailable then .reconciledOnly else .untracked

def isCoherent (f : Face) : Bool :=
  f.mode = .repairable || f.mode = .reconciledOnly

end Face

namespace Cache

def face (c : Cache) : Face :=
  ⟨c.name, c.config.invalidateOnChange, c.subscription, c.pushUnavailable, c.setup⟩

theorem face_isCoherent (c : Cache) : c.face.isCoherent = c.isCoherent :=
  rfl

theorem face_applyEvent (c : Cache) (e : Event) : (c.applyEvent e).1.face = c.face := by
  cases e <;> rfl

theorem face_onEvent (c : Cache) (e : Event) : (c.onEvent e).1.face = c.face := by
  unfold onEvent
  cases c.eventShape? with
  | none => exact face_applyEvent c e
  | some shape =>
      by_cases hFits : e.shape = shape
      · simp only [hFits, if_true]
        exact face_applyEvent c e
      · simp only [hFits, if_false]
        rfl

end Cache

/-- The books of a client. -/
structure Books where
  face : CacheId → Option Face
  entry : String → Option CacheId
  registered : RegistrationId → Option String
  bound : RegistrationId → Option CacheId
  nextRegistration : Nat
  nextCache : CacheId
  closed : Bool
  running : Option WorkerId
  /-- The workers that have not stopped, and whether they were told to. -/
  worker : WorkerId → Option Bool
  nextWorker : WorkerId
  faults : ClusterFaults

namespace Books

def changeFace (b : Books) (id : CacheId) (change : Face → Face) : Books :=
  { b with face := Function.update b.face id ((b.face id).map change) }

theorem face_changeFace (b : Books) {change : Face → Face} {id : CacheId} {f : Face}
    (hFace : b.face id = some f) : (b.changeFace id change).face id = some (change f) := by
  rw [changeFace, hFace, Option.map_some]
  exact Function.update_self ..

/-- What a change of another cache, or one that is of no matter, leaves as it is. -/
theorem view_changeFace (b : Books) {α : Type} (view : Option Face → α) {change : Face → Face}
    {id other : CacheId} (h : other = id → ∀ f, view (some (change f)) = view (some f)) :
    view ((b.changeFace id change).face other) = view (b.face other) := by
  by_cases hSame : other = id
  · subst hSame
    simp only [changeFace, Function.update_self]
    cases b.face other with
    | none => rfl
    | some f => exact h rfl f
  · simp only [changeFace, Function.update_of_ne hSame]

/-- What a change of a cache makes of it. -/
theorem view_changeFace_eq (b : Books) {α : Type} (view : Option Face → α) {change : Face → Face}
    {id : CacheId} {f : Face} (hFace : b.face id = some f) (other : CacheId) :
    view ((b.changeFace id change).face other) =
      if other = id then view (some (change f)) else view (b.face other) := by
  by_cases hSame : other = id
  · rw [if_pos hSame, hSame]
    simp [changeFace, hFace]
  · rw [if_neg hSame]
    simp [changeFace, Function.update_of_ne hSame]

/-- A cache is created and enters the directory. -/
def add (b : Books) (f : Face) : Books :=
  { b with
    face := Function.update b.face b.nextCache (some f)
    entry := Function.update b.entry f.name (some b.nextCache)
    nextCache := b.nextCache + 1 }

def takeOut (b : Books) (name : String) : Books :=
  { b with entry := Function.update b.entry name none }

/-- The subscription that a cache of this name is granted next. -/
def granted (b : Books) (name : String) (shape : EventShape) : Subscription :=
  ⟨name, Cluster.registrationText b.nextRegistration, shape⟩

/-- The cluster registers a listener, and the cache that asked for it holds and binds it. -/
def install (b : Books) (id : CacheId) (f : Face) (shape : EventShape) : Books :=
  let subscription := b.granted f.name shape
  { b.changeFace id fun f =>
      { f with subscription := some subscription, pushUnavailable := false } with
    registered := Function.update b.registered subscription.registration (some f.name)
    bound := Function.update b.bound subscription.registration (some id)
    nextRegistration := b.nextRegistration + 1 }

/-- A cache lets go of its subscription and unbinds it. -/
def detach (b : Books) (id : CacheId) (subscription : Subscription) : Books :=
  { b.changeFace id fun f => { f with subscription := none } with
    bound := Function.update b.bound subscription.registration none }

/-- The cluster removes a listener. -/
def strike (b : Books) (registration : RegistrationId) : Books :=
  { b with registered := Function.update b.registered registration none }

def hire (b : Books) : Books :=
  { b with
    worker := Function.update b.worker b.nextWorker (some false)
    nextWorker := b.nextWorker + 1
    running := some b.nextWorker }

/-- The running worker is told to stop, and a start or a shutdown no longer finds it. -/
def dismiss (b : Books) (w : WorkerId) : Books :=
  { b with
    worker := Function.update b.worker w ((b.worker w).map fun _ => true)
    running := none }

/-- A worker has stopped. -/
def retire (b : Books) (w : WorkerId) : Books :=
  { b with worker := Function.update b.worker w none }

end Books

/-- What a worker that has not stopped was told. -/
def Worker.standing (w : Worker) : Option Bool :=
  if w.isFinished then none else some w.signalled

namespace Client

def books (s : Client) : Books where
  face id := s.caches[id]?.map Cache.face
  entry name := s.directory[name]?
  registered r := s.cluster.registrations[r]?
  bound r := s.cluster.bindings[r]?
  nextRegistration := s.cluster.nextRegistration
  nextCache := s.nextCache
  closed := s.closed
  running := s.running
  worker w := s.workers[w]?.bind Worker.standing
  nextWorker := s.nextWorker
  faults := s.cluster.faults

end Client

section Lookup

variable {α β : Type} [Ord α] [Std.TransOrd α] [Std.LawfulEqOrd α] [DecidableEq α]
  (m : Std.ExtTreeMap α β) (k : α)

theorem lookup_insert (v : β) :
    (fun other => (m.insert k v)[other]?) =
      Function.update (fun other => m[other]?) k (some v) := by
  funext other
  rw [Std.ExtTreeMap.getElem?_insert, Function.update_apply]
  by_cases hKey : k = other
  · simp [hKey]
  · simp [hKey, Ne.symm hKey]

theorem lookup_erase :
    (fun other => (m.erase k)[other]?) = Function.update (fun other => m[other]?) k none := by
  funext other
  rw [Std.ExtTreeMap.getElem?_erase, Function.update_apply]
  by_cases hKey : k = other
  · simp [hKey]
  · simp [hKey, Ne.symm hKey]

theorem lookup_modify (change : β → β) :
    (fun other => (m.modify k change)[other]?) =
      Function.update (fun other => m[other]?) k (m[k]?.map change) := by
  funext other
  rw [Std.ExtTreeMap.getElem?_modify, Function.update_apply]
  by_cases hKey : k = other
  · simp [hKey]
  · simp [hKey, Ne.symm hKey]

omit [DecidableEq α] in
/-- Keys occur once in a map, and so do entries. -/
theorem nodup_toList : m.toList.Nodup := by
  refine m.distinct_keys_toList.imp fun hKeys hSame => hKeys ?_
  rw [hSame]
  exact Std.ReflCmp.compare_self

end Lookup

namespace Client

variable (s : Client)

variable {s} in
theorem mem_registered {id : CacheId} :
    id ∈ s.registered ↔ ∃ name : String, s.directory[name]? = some id := by
  simp only [registered, List.mem_map, Prod.exists, exists_eq_right,
    Std.ExtTreeMap.mem_toList_iff_getElem?_eq_some]

section Caches

variable (id other : CacheId)

theorem getElem?_modifyCache (change : Cache → Cache) :
    (s.modifyCache other change).caches[id]? =
      if other = id then s.caches[id]?.map change else s.caches[id]? := by
  simp only [modifyCache, Std.ExtTreeMap.getElem?_modify, Std.LawfulEqCmp.compare_eq_iff_eq]
  split_ifs with hSame
  · rw [hSame]
  · rfl

theorem getElem?_modifyCache_of_ne (change : Cache → Cache) (h : id ≠ other) :
    (s.modifyCache other change).caches[id]? = s.caches[id]? :=
  (s.getElem?_modifyCache id other change).trans (if_neg h.symm)

variable {s id} in
theorem getElem?_modifyCache_self {c : Cache} (hCache : s.caches[id]? = some c)
    (change : Cache → Cache) : (s.modifyCache id change).caches[id]? = some (change c) := by
  rw [s.getElem?_modifyCache, if_pos rfl, hCache, Option.map_some]

end Caches

theorem books_withCluster {c : Cluster} (h : s.cluster.SameListeners c) :
    (s.withCluster c).books = s.books := by
  obtain ⟨hRegistrations, hBindings, hNext, hFaults⟩ := h
  simp only [books, withCluster, hRegistrations, hBindings, hNext, hFaults]

section Caches

theorem face_eq_comp : s.books.face = Option.map Cache.face ∘ fun id => s.caches[id]? :=
  rfl

theorem books_modifyCache {change : Cache → Cache} {g : Face → Face} (id : CacheId)
    (h : ∀ c, (change c).face = g c.face) :
    (s.modifyCache id change).books = s.books.changeFace id g := by
  have hFace : (s.modifyCache id change).books.face =
      Function.update s.books.face id ((s.books.face id).map g) := by
    rw [face_eq_comp, modifyCache, lookup_modify, Function.comp_update, ← face_eq_comp]
    simp only [books, Option.map_map]
    congr 2
    funext c
    exact h c
  rw [Books.changeFace, ← hFace]
  rfl

theorem books_modifyCache_of_same {change : Cache → Cache} (id : CacheId)
    (h : ∀ c, (change c).face = c.face) : (s.modifyCache id change).books = s.books := by
  rw [books_modifyCache s id (g := fun f => f) h, Books.changeFace, Option.map_id',
    Function.update_eq_self]

theorem books_addCache (name : String) (cache : Cache) (hName : cache.name = name) :
    ({ (s.addCache cache).1 with
      directory :=
        (s.addCache cache).1.directory.insert name (s.addCache cache).2 } : Client).books =
      s.books.add cache.face := by
  have hFace : (fun id => ((s.caches.insert s.nextCache cache)[id]?).map Cache.face) =
      Function.update s.books.face s.nextCache (some cache.face) := by
    have hInsert := congrArg (Option.map Cache.face ∘ ·) (lookup_insert s.caches s.nextCache cache)
    rwa [Function.comp_update] at hInsert
  have hEntry := lookup_insert s.directory name s.nextCache
  have hSame : cache.face.name = name := hName
  rw [Books.add, hSame]
  simp only [books, addCache] at hFace ⊢
  rw [hFace, hEntry]

end Caches

section Workers

theorem books_modifyWorker {change : Worker → Worker} {id : WorkerId} {standing : Option Bool}
    (h : (s.workers[id]?.map change).bind Worker.standing = standing) :
    (s.modifyWorker id change).books =
      { s.books with worker := Function.update s.books.worker id standing } := by
  have hWorker : (s.modifyWorker id change).books.worker =
      Function.update s.books.worker id standing := by
    have hModify := congrArg ((·.bind Worker.standing) ∘ ·) (lookup_modify s.workers id change)
    rwa [Function.comp_update, h] at hModify
  rw [← hWorker]
  rfl

theorem isRunning_iff :
    s.isRunning = true ↔ ∃ w, s.books.running = some w ∧ (s.books.worker w).isSome := by
  unfold isRunning
  simp only [books]
  cases s.running with
  | none => simp
  | some w =>
      cases hKnown : s.workers[w]? with
      | none => simp [hKnown]
      | some worker =>
          by_cases hFinished : worker.isFinished <;> simp [hKnown, hFinished, Worker.standing]

theorem books_hire :
    ({ s with
      workers := s.workers.insert s.nextWorker ⟨false, s.now, .ready⟩
      nextWorker := s.nextWorker + 1
      running := some s.nextWorker } : Client).books = s.books.hire := by
  have hWorker := congrArg ((·.bind Worker.standing) ∘ ·)
    (lookup_insert s.workers s.nextWorker ⟨false, s.now, .ready⟩)
  rw [Function.comp_update] at hWorker
  have hBooks : s.books.worker = (·.bind Worker.standing) ∘ fun w => s.workers[w]? := rfl
  rw [Books.hire, hBooks]
  exact congrArg (fun worker => ({ s.books with
    worker := worker
    nextWorker := s.nextWorker + 1
    running := some s.nextWorker } : Books)) hWorker

theorem books_dismiss (w : WorkerId) :
    ({ s.modifyWorker w fun worker => { worker with signalled := true } with
      running := none } : Client).books = s.books.dismiss w := by
  have hStanding : (s.workers[w]?.map fun worker => { worker with signalled := true }).bind
      Worker.standing = (s.books.worker w).map fun _ => true := by
    simp only [books]
    cases s.workers[w]? with
    | none => rfl
    | some worker =>
        by_cases hFinished : worker.isFinished
        · have hFinished' : ({ worker with signalled := true } : Worker).isFinished := hFinished
          simp [Worker.standing, hFinished, hFinished']
        · have hFinished' : ¬({ worker with signalled := true } : Worker).isFinished := hFinished
          simp [Worker.standing, hFinished, hFinished']
  have hWorker := s.books_modifyWorker hStanding
  exact congrArg (fun b => ({ b with running := none } : Books)) hWorker

theorem books_setStage (w : WorkerId) {stage : WorkerStage} {standing : Option Bool}
    (h : ∀ worker, s.workers[w]? = some worker →
      ({ worker with stage := stage } : Worker).standing = standing)
    (hNone : s.workers[w]? = none → standing = none) :
    (s.setStage w stage).books =
      { s.books with worker := Function.update s.books.worker w standing } := by
  refine s.books_modifyWorker ?_
  cases hKnown : s.workers[w]? with
  | none => exact (hNone hKnown).symm
  | some worker => exact h worker hKnown

theorem books_retire_of_finished (w : WorkerId) (h : (s.workers[w]?).all Worker.isFinished) :
    s.books.retire w = s.books := by
  have hNone : s.books.worker w = none := by
    simp only [books]
    cases hKnown : s.workers[w]? with
    | none => rfl
    | some worker =>
        rw [hKnown, Option.all_some] at h
        simp [Worker.standing, h]
  rw [Books.retire, ← hNone, Function.update_eq_self]

end Workers

section Listeners

variable (r : RegistrationId) (id : CacheId)

theorem books_bind : (s.withCluster (s.cluster.bind r id)).books =
    { s.books with bound := Function.update s.books.bound r (some id) } := by
  have hBound := lookup_insert s.cluster.bindings r id
  simp only [books, withCluster, Cluster.bind]
  rw [hBound]

theorem books_unbind : (s.withCluster (s.cluster.unbind r)).books =
    { s.books with bound := Function.update s.books.bound r none } := by
  have hBound := lookup_erase s.cluster.bindings r
  simp only [books, withCluster, Cluster.unbind]
  rw [hBound]

theorem books_register (name : String) (shape : EventShape) (atHome : Bool)
    (h : s.cluster.faults.refuseListeners = false) :
    (s.withCluster (s.cluster.carryOut (.addListener name shape atHome)).1).books =
      { s.books with
        registered := Function.update s.books.registered
          (Cluster.registrationText s.books.nextRegistration) (some name)
        nextRegistration := s.books.nextRegistration + 1 } := by
  have hRegistered := lookup_insert s.cluster.registrations
    (Cluster.registrationText s.cluster.nextRegistration) name
  simp only [books, withCluster, Cluster.carryOut, h, Bool.false_eq_true, if_false]
  rw [hRegistered]

theorem books_strike (name : String) :
    (s.withCluster (s.cluster.carryOut (.removeListener name r)).1).books = s.books.strike r := by
  have hRegistered := lookup_erase s.cluster.registrations r
  simp only [books, withCluster, Cluster.carryOut, Books.strike]
  rw [hRegistered]

end Listeners

end Client

end NearCache
