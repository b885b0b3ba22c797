import Mathlib.Data.List.Forall2
import NearCache.Client.Worker
import NearCache.Proofs.Client.Books

/-!
What goes on beside the activities leaves the books as they are, except that a worker that was told
to stop may do so.
-/

namespace NearCache

namespace Cache

theorem face_repairNamed (name : String) (sequences : List (PartitionId × Sequence))
    (caches : List Cache) :
    (repairNamed name sequences caches).1.map face = caches.map face := by
  induction caches with
  | nil => rfl
  | cons c rest ih =>
      unfold repairNamed
      by_cases hName : c.name = name
      · rw [if_pos hName]
        rfl
      · rw [if_neg hName]
        exact congrArg (c.face :: ·) ih

theorem face_repairAllNamed (sequences : List (String × List (PartitionId × Sequence)))
    (caches : List Cache) :
    (repairAllNamed caches sequences).1.map face = caches.map face := by
  induction sequences generalizing caches with
  | nil => rfl
  | cons named rest ih =>
      have hFirst := face_repairNamed named.1 named.2 caches
      cases hResult : repairNamed named.1 named.2 caches with
      | mk caches' result =>
          rw [hResult] at hFirst
          rw [repairAllNamed, hResult]
          cases result with
          | ok done => exact (ih caches').trans hFirst
          | error fault => exact hFirst

theorem face_applyReport (caches : List Cache) (report : MemberReport) :
    (applyReport caches report).1.map face = caches.map face := by
  rw [applyReport, face_repairAllNamed, List.map_map]
  rfl

theorem face_applyReports (caches : List Cache) (reports : List MemberReport) :
    (applyReports caches reports).1.map face = caches.map face := by
  induction reports generalizing caches with
  | nil => rfl
  | cons report rest ih =>
      have hFirst := face_applyReport caches report
      cases hResult : applyReport caches report with
      | mk caches' result =>
          rw [hResult] at hFirst
          rw [applyReports, hResult]
          cases result with
          | ok done => exact (ih caches').trans hFirst
          | error fault => exact hFirst

end Cache

namespace Client

variable (s : Client)

theorem books_replaceCache {id : CacheId} {cache cache' : Cache}
    (hKnown : s.caches[id]? = some cache) (hFace : cache'.face = cache.face) :
    (s.modifyCache id fun _ => cache').books = s.books := by
  rw [s.books_modifyCache id (g := fun _ => cache.face) fun _ => hFace, Books.changeFace]
  have hSame : (s.books.face id).map (fun _ => cache.face) = s.books.face id := by
    simp [books, hKnown]
  rw [hSame, Function.update_eq_self]

theorem books_deliverTo (event : Event) (ids : List CacheId) :
    (s.deliverTo event ids).1.books = s.books := by
  induction ids generalizing s with
  | nil => rfl
  | cons id rest ih =>
      unfold deliverTo
      cases hKnown : s.caches[id]? with
      | none => exact ih s
      | some cache =>
          have hBooks := s.books_replaceCache hKnown (cache.face_onEvent event)
          cases hResult : (cache.onEvent event).2 with
          | ok done => simpa only [hResult] using (ih _).trans hBooks
          | error fault => simpa only [hResult] using hBooks

theorem books_deliver (name : String) (event : Event) : (s.deliver name event).1.books = s.books :=
  s.books_deliverTo event (s.cluster.handlers name)

theorem books_repairGaps (ids : List CacheId) : (s.repairGaps ids).1.books = s.books := by
  induction ids generalizing s with
  | nil => rfl
  | cons id rest ih =>
      unfold repairGaps
      cases hKnown : s.caches[id]? with
      | none => exact ih s
      | some cache =>
          have hFace : cache.repairGaps.1.face = cache.face := rfl
          have hBooks := s.books_replaceCache hKnown hFace
          exact (ih _).trans hBooks

section Rounds

/-- Putting caches back under their numbers changes no face if each of them has the face that stands
there. -/
theorem books_putBack (ids : List CacheId) (caches : List Cache)
    (h : ids.map s.books.face = caches.map fun c => some c.face) :
    (s.putBack ids caches).books = s.books := by
  suffices hFaces : ∀ (pairs : List (CacheId × Cache)) (m : Std.ExtTreeMap CacheId Cache),
      (∀ p ∈ pairs, (m[p.1]?).map Cache.face = some p.2.face) →
      (fun id : CacheId => ((pairs.foldl (fun m p => m.insert p.1 p.2) m)[id]?).map Cache.face) =
        fun id : CacheId => (m[id]?).map Cache.face by
    have hPairs : ∀ p ∈ ids.zip caches, s.books.face p.1 = some p.2.face := by
      rw [← List.forall₂_eq_eq_eq, List.forall₂_map_left_iff, List.forall₂_map_right_iff,
        List.forall₂_iff_zip] at h
      exact fun p hm => h.2 hm
    have hSame := hFaces (ids.zip caches) s.caches hPairs
    simp only [books, putBack]
    rw [hSame]
  intro pairs
  induction pairs with
  | nil => exact fun m _ => rfl
  | cons p rest ih =>
      intro m hPairs
      rw [List.forall_mem_cons] at hPairs
      have hInsert : (fun id : CacheId => ((m.insert p.1 p.2)[id]?).map Cache.face) =
          fun id : CacheId => (m[id]?).map Cache.face := by
        have hUpdate := congrArg (Option.map Cache.face ∘ ·) (lookup_insert m p.1 p.2)
        rw [Function.comp_update, Option.map_some, ← hPairs.1] at hUpdate
        exact hUpdate.trans
          (Function.update_eq_self p.1 fun id : CacheId => (m[id]?).map Cache.face)
      refine (ih (m.insert p.1 p.2) fun q hq => ?_).trans hInsert
      exact (congrFun hInsert q.1).trans (hPairs.2 q hq)

theorem face_cachesOf (ids : List CacheId) (h : ∀ id ∈ ids, s.caches.contains id) :
    ids.map s.books.face = (s.cachesOf ids).map fun c => some c.face := by
  induction ids with
  | nil => rfl
  | cons id rest ih =>
      rw [List.forall_mem_cons] at h
      obtain ⟨cache, hKnown⟩ : ∃ cache, s.caches[id]? = some cache := by
        rw [← Option.isSome_iff_exists, ← Std.ExtTreeMap.contains_eq_isSome_getElem?]
        exact h.1
      have hFace : s.books.face id = some cache.face := by simp [books, hKnown]
      rw [List.map_cons, cachesOf, List.filterMap_cons_some hKnown, List.map_cons, hFace, ih h.2]
      rfl

end Rounds

section Workers

variable {w : WorkerId}

/-- A worker that goes on to a stage in which it has not stopped stands as before. -/
theorem books_setStage_of_alive {stage : WorkerStage} (hAlive : (s.books.worker w).isSome)
    (hStage : ∀ worker : Worker, ({ worker with stage := stage } : Worker).isFinished = false) :
    (s.setStage w stage).books = s.books := by
  obtain ⟨signalled, hStanding⟩ := Option.isSome_iff_exists.mp hAlive
  have hBooks : (s.setStage w stage).books =
      { s.books with worker := Function.update s.books.worker w (some signalled) } := by
    refine s.books_setStage w (fun worker hKnown => ?_) fun hNone => ?_
    · simp only [books, hKnown, Option.bind_some, Worker.standing] at hStanding
      simp only [Worker.standing, hStage worker]
      by_cases hFinished : worker.isFinished
      · simp [hFinished] at hStanding
      · simpa [hFinished] using hStanding
    · simp [books, hNone] at hStanding
  rw [hBooks, ← hStanding, Function.update_eq_self]

theorem books_endPass (hAlive : (s.books.worker w).isSome) : (s.endPass w).books = s.books :=
  s.books_setStage_of_alive hAlive fun _ => rfl

theorem books_failPass (hAlive : (s.books.worker w).isSome) : (s.failPass w).books = s.books :=
  s.books_setStage_of_alive hAlive fun _ => rfl

theorem books_modifyWorker_of_same {change : Worker → Worker}
    (h : ∀ worker, (change worker).standing = worker.standing) :
    (s.modifyWorker w change).books = s.books := by
  have hStanding : (s.workers[w]?.map change).bind Worker.standing = s.books.worker w := by
    simp only [books]
    cases s.workers[w]? with
    | none => rfl
    | some worker => exact h worker
  rw [s.books_modifyWorker hStanding, Function.update_eq_self]

theorem books_beginPass (worker : Worker) (hAlive : (s.books.worker w).isSome) :
    (s.beginPass w worker).books = s.books := by
  have hRepaired := s.books_repairGaps s.coherentCaches
  unfold beginPass
  dsimp only
  split
  · exact (books_endPass _ (hRepaired ▸ hAlive)).trans hRepaired
  · have hAsked : ∀ (t : Client) (names : List String), t.books = s.books →
        (t.withCluster (t.cluster.beginRound t.now names t.coherence.memberTimeout).1).books =
          s.books := fun t names hBooks =>
      (t.books_withCluster (t.cluster.sameListeners_beginRound _ names _)).trans hBooks
    split
    · exact (books_setStage_of_alive _ (hAsked _ _ hRepaired ▸ hAlive) fun _ => rfl).trans
        (hAsked _ _ hRepaired)
    · exact (books_failPass _ (hAsked _ _ hRepaired ▸ hAlive)).trans (hAsked _ _ hRepaired)

theorem books_finishRound (ids : List CacheId) (round : Round)
    (hAlive : (s.books.worker w).isSome) : (s.finishRound w ids round).books = s.books := by
  have hPut : (s.putBack (ids.filter s.caches.contains)
      (applyReports (s.cachesOf (ids.filter s.caches.contains)) round.reports).1).books =
        s.books := by
    refine s.books_putBack _ _ ?_
    rw [s.face_cachesOf _ fun id hm => (List.mem_filter.mp hm).2]
    have hFaces := Cache.face_applyReports (s.cachesOf (ids.filter s.caches.contains)) round.reports
    simpa [Function.comp_def] using congrArg (List.map some) hFaces.symm
  have hEnd : ∀ (t : Client) (metrics : Metrics), t.books = s.books →
      (({ t.modifyWorker w fun worker => { worker with lastRound := t.now } with
        metrics := metrics } : Client).endPass w).books = s.books := by
    intro t metrics hBooks
    have hDated : (t.modifyWorker w fun worker => { worker with lastRound := t.now }).books =
        s.books := by
      refine (t.books_modifyWorker_of_same ?_).trans hBooks
      exact fun _ => rfl
    rw [← hDated] at hAlive
    exact (books_endPass _ hAlive).trans hDated
  unfold finishRound
  dsimp only
  split
  · exact (books_failPass _ (hPut ▸ hAlive)).trans hPut
  · exact hEnd _ _ hPut

theorem books_takeReplies (ids : List CacheId) (round : Round)
    (hAlive : (s.books.worker w).isSome) : (s.takeReplies w ids round).1.books = s.books := by
  unfold takeReplies
  cases round.poll s.cluster s.now with
  | error fault => exact s.books_failPass hAlive
  | ok round =>
      by_cases hDone : round.isDone
      · simp only [hDone, if_true]
        exact s.books_finishRound ids round hAlive
      · simp only [hDone]
        exact s.books_setStage_of_alive hAlive fun _ => rfl

/-- A step of a worker changes nothing in the books, unless the worker was told to stop and does. -/
theorem books_stepWorker :
    (s.stepWorker w).1.books = s.books ∨
      (s.books.worker w = some true ∧ (s.stepWorker w).1.books = s.books.retire w) := by
  unfold stepWorker
  cases hKnown : s.workers[w]? with
  | none => exact Or.inl rfl
  | some worker =>
      have hStanding : s.books.worker w = worker.standing := by simp [books, hKnown]
      have hExit : (s.setStage w .exited).books = s.books.retire w :=
        s.books_setStage w (fun _ _ => rfl) fun _ => rfl
      dsimp only
      cases hStage : worker.stage with
      | ready =>
          rw [Worker.standing, Worker.isFinished, hStage] at hStanding
          cases hSignalled : worker.signalled with
          | true =>
              rw [hSignalled] at hStanding
              exact Or.inr ⟨hStanding, hExit⟩
          | false =>
              rw [hSignalled] at hStanding
              exact Or.inl (s.books_beginPass worker (by rw [hStanding]; rfl))
      | fetching ids round =>
          rw [Worker.standing, Worker.isFinished, hStage] at hStanding
          exact Or.inl (s.books_takeReplies ids round (by rw [hStanding]; rfl))
      | sleeping due =>
          rw [Worker.standing, Worker.isFinished, hStage] at hStanding
          cases hSignalled : worker.signalled with
          | true =>
              rw [hSignalled] at hStanding
              exact Or.inr ⟨hStanding, hExit⟩
          | false =>
              exact Or.inl (s.books_setStage_of_alive (by rw [hStanding]; rfl) fun _ => rfl)
      | exited => exact Or.inl rfl
      | aborted => exact Or.inl rfl

end Workers

end Client

end NearCache
