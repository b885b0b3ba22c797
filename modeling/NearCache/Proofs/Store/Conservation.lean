import Mathlib.Algebra.GroupWithZero.Nat
import NearCache.Proofs.Store.Capacity

/-!
The books of a store. Every slot that was ever given to a key is still held, or was lost in one of the
ways that are counted; every read is a hit or a miss. One step keeps the books balanced, and so does a
run.
-/

namespace NearCache

namespace Store

variable {ν : Type}

/-- The call is a read. -/
def Call.isGet : Call ν → Bool
  | .get .. => true
  | _ => false

/-- The call invalidates the whole store. -/
def Call.isInvalidateAll : Call ν → Bool
  | .invalidateAll => true
  | _ => false

/-- The step is a put that was accepted for a key without a slot. -/
def placesNew : Store ν × Call ν → Bool
  | (s, .put key value stamp now draw) =>
    !s.slots.contains key && (s.put key value stamp now draw).2
  | _ => false

/-- The step is a reservation that was granted. -/
def grants (step : Store ν × Call ν) : Bool :=
  (issued? step).isSome

/-- The step is a cancellation that was accepted. -/
def cancels : Store ν × Call ν → Bool
  | (s, .cancel key id) => (s.cancel key id).2
  | _ => false

/-- The number of slots that a step drops at once. -/
def dropped : Store ν × Call ν → Nat
  | (s, .invalidateAll) | (s, .clear) => s.size
  | _ => 0

/-- The slots that are held, and those that were lost one by one and counted. -/
def accounted (s : Store ν) : Nat :=
  s.size + s.counters.evictions + s.counters.expirations + s.counters.staleReads +
    s.counters.invalidations

/-- The books after a step follow from those before it. -/
structure Balanced (s : Store ν) (call : Call ν) : Prop where
  slots : s.accounted + (placesNew (s, call)).toNat + (grants (s, call)).toNat =
    (s.perform call).accounted + (cancels (s, call)).toNat + dropped (s, call)
  reads : (s.perform call).counters.hits + (s.perform call).counters.misses =
    s.counters.hits + s.counters.misses + call.isGet.toNat
  outdated : s.counters.expirations + s.counters.staleReads ≤ s.counters.misses →
    (s.perform call).counters.expirations + (s.perform call).counters.staleReads ≤
      (s.perform call).counters.misses
  full : (s.perform call).counters.fullInvalidations =
    s.counters.fullInvalidations + call.isInvalidateAll.toNat

section Admissions

variable {s s' : Store ν} {key : Data} {draw : Nat} {accepted : Bool}

/-- An admission changes no counter but that of the evictions. -/
theorem Admission.counters (h : Admission s key draw s' accepted) :
    s'.counters = { s.counters with evictions := s'.counters.evictions } := by
  cases h with
  | spare _ _ hCounters => rw [hCounters]
  | evicted _ _ _ _ hCounters => rw [hCounters]
  | refused _ _ _ hCounters => rw [hCounters]

theorem Admission.accounted (h : Admission s key draw s' accepted) :
    s.accounted + accepted.toNat = s'.accounted := by
  unfold Store.accounted
  cases h with
  | spare _ hSize hCounters =>
      rw [hSize, hCounters, Bool.toNat_true]
      omega
  | evicted _ _ _ hSize hCounters =>
      rw [hSize, hCounters, Bool.toNat_true]
      dsimp only
      omega
  | refused _ _ hSlots hCounters =>
      rw [hCounters, size, size, hSlots]
      rfl

end Admissions

section Reads

variable {s s' : Store ν}

theorem Read.accounted (h : Read s s') : s'.accounted = s.accounted := by
  unfold Store.accounted
  cases h with
  | missed hSize hCounters => rw [hSize, hCounters]
  | expired hSize hCounters =>
      rw [hCounters]
      dsimp only
      omega
  | stale hSize hCounters =>
      rw [hCounters]
      dsimp only
      omega
  | hit hSize hCounters => rw [hSize, hCounters]

/-- A read is a hit or a miss. -/
theorem Read.hits_add_misses (h : Read s s') :
    s'.counters.hits + s'.counters.misses = s.counters.hits + s.counters.misses + 1 := by
  cases h with
  | missed _ hCounters => rw [hCounters, Nat.add_assoc]
  | expired _ hCounters => rw [hCounters, Nat.add_assoc]
  | stale _ hCounters => rw [hCounters, Nat.add_assoc]
  | hit _ hCounters => rw [hCounters, Nat.add_right_comm]

/-- A read that drops an entry is a miss. -/
theorem Read.outdated (h : Read s s')
    (hBefore : s.counters.expirations + s.counters.staleReads ≤ s.counters.misses) :
    s'.counters.expirations + s'.counters.staleReads ≤ s'.counters.misses := by
  cases h with
  | missed _ hCounters =>
      rw [hCounters]
      exact Nat.le_succ_of_le hBefore
  | expired _ hCounters =>
      rw [hCounters]
      dsimp only
      omega
  | stale _ hCounters =>
      rw [hCounters]
      exact Nat.succ_le_succ hBefore
  | hit _ hCounters =>
      rw [hCounters]
      exact hBefore

theorem Read.fullInvalidations (h : Read s s') :
    s'.counters.fullInvalidations = s.counters.fullInvalidations := by
  cases h with
  | missed _ hCounters => rw [hCounters]
  | expired _ hCounters => rw [hCounters]
  | stale _ hCounters => rw [hCounters]
  | hit _ hCounters => rw [hCounters]

end Reads

section Steps

variable {s : Store ν}

/-- A step that is neither a read nor an invalidation of everything has only its slots to account for,
with evictions and invalidations of single keys. -/
theorem Balanced.of_counters {call : Call ν} {evictions invalidations : Nat}
    (hCounters : (s.perform call).counters =
      { s.counters with evictions := evictions, invalidations := invalidations })
    (hGet : call.isGet = false) (hAll : call.isInvalidateAll = false)
    (hSlots : s.accounted + (placesNew (s, call)).toNat + (grants (s, call)).toNat =
      (s.perform call).accounted + (cancels (s, call)).toNat + dropped (s, call)) :
    Balanced s call where
  slots := hSlots
  reads := by rw [hCounters, hGet]; rfl
  outdated h := by rw [hCounters]; exact h
  full := by rw [hCounters, hAll]; rfl

theorem balanced_put (hIndexed : s.slots.Indexed) (key : Data) (value : ν) (stamp : Position)
    (now : Instant) (draw : Nat) : Balanced s (.put key value stamp now draw) := by
  cases hHas : s.slots.contains key with
  | true =>
      obtain ⟨hSize, hCounters⟩ := s.put_of_contains key value stamp now draw hHas
      have hSlots : s.accounted + (!s.slots.contains key && (s.put key value stamp now draw).2).toNat =
          (s.put key value stamp now draw).1.accounted := by
        rw [hHas, accounted, accounted, hSize, hCounters]
        rfl
      exact .of_counters hCounters rfl rfl hSlots
  | false =>
      have hAdmission := admission_put hIndexed hHas stamp draw value now
      have hSlots : s.accounted + (!s.slots.contains key && (s.put key value stamp now draw).2).toNat =
          (s.put key value stamp now draw).1.accounted := by
        rw [hHas]
        exact hAdmission.accounted
      exact .of_counters hAdmission.counters rfl rfl hSlots

theorem balanced_reserve (hIndexed : s.slots.Indexed) (key : Data) (stamp : Position) (draw : Nat) :
    Balanced s (.reserve key stamp draw) := by
  cases hHas : s.slots.contains key with
  | true =>
      have hKept := s.reserve_of_contains key stamp draw hHas
      have hCounters : (s.reserve key stamp draw).1.counters = s.counters := by rw [hKept]; rfl
      have hSlots : s.accounted + (s.reserve key stamp draw).2.isSome.toNat =
          (s.reserve key stamp draw).1.accounted := by
        rw [hKept]
        rfl
      exact .of_counters hCounters rfl rfl hSlots
  | false =>
      have hAdmission := admission_reserve hIndexed hHas stamp draw
      exact .of_counters hAdmission.counters rfl rfl hAdmission.accounted

theorem balanced_publish (key : Data) (id : ReservationId) (value : ν) (now : Instant) :
    Balanced s (.publish key id value now) := by
  obtain ⟨hSize, hCounters⟩ := s.publish_counts key id value now
  have hSlots : s.accounted = (s.publish key id value now).1.accounted := by
    rw [accounted, accounted, hSize, hCounters]
  exact .of_counters hCounters rfl rfl hSlots

theorem balanced_cancel (key : Data) (id : ReservationId) : Balanced s (.cancel key id) := by
  obtain ⟨hSize, hCounters⟩ := s.cancel_counts key id
  have hSlots : s.accounted = (s.cancel key id).1.accounted + (s.cancel key id).2.toNat := by
    rw [accounted, accounted, hCounters]
    omega
  exact .of_counters hCounters rfl rfl hSlots

theorem balanced_get (key : Data) (now : Instant) : Balanced s (.get key now) where
  slots := (s.read_get key now).accounted.symm
  reads := (s.read_get key now).hits_add_misses
  outdated := (s.read_get key now).outdated
  full := (s.read_get key now).fullInvalidations

theorem balanced_invalidate (key : Data) : Balanced s (.invalidate key) := by
  obtain ⟨hSize, hCounters⟩ := s.invalidate_counts key
  have hSlots : s.accounted = (s.invalidate key).1.accounted := by
    rw [accounted, accounted, hCounters]
    dsimp only
    omega
  exact .of_counters hCounters rfl rfl hSlots

/-- What a store without slots has lost at once are the slots that it had. -/
theorem accounted_clear (s : Store ν) : s.accounted = s.clear.accounted + s.size := by
  have hSize : s.clear.size = 0 := s.slots.size_clear
  have hCounters : s.clear.counters = s.counters := rfl
  rw [accounted, accounted, hSize, hCounters]
  omega

/-- Every call keeps the books balanced. -/
theorem balanced_perform (hIndexed : s.slots.Indexed) (call : Call ν) : Balanced s call := by
  cases call with
  | put key value stamp now draw => exact balanced_put hIndexed key value stamp now draw
  | reserve key stamp draw => exact balanced_reserve hIndexed key stamp draw
  | publish key id value now => exact balanced_publish key id value now
  | cancel key id => exact balanced_cancel key id
  | get key now => exact balanced_get key now
  | invalidate key => exact balanced_invalidate key
  | invalidateAll => exact ⟨s.accounted_clear, rfl, id, rfl⟩
  | clear => exact ⟨s.accounted_clear, rfl, id, rfl⟩
  | track tracker => exact ⟨rfl, rfl, id, rfl⟩

end Steps

section Runs

/-- One more element of a list counts for one, or for none. -/
theorem countP_cons_toNat {α : Type} (p : α → Bool) (a : α) (l : List α) :
    (a :: l).countP p = (p a).toNat + l.countP p := by
  rw [List.countP_cons, Nat.add_comm]
  cases p a <;> rfl

theorem slots_run {s : Store ν} (hIndexed : s.slots.Indexed) (calls : List (Call ν)) :
    s.accounted + (s.steps calls).countP placesNew + (s.steps calls).countP grants =
      (s.run calls).accounted + (s.steps calls).countP cancels +
        ((s.steps calls).map dropped).sum := by
  induction calls generalizing s with
  | nil => rfl
  | cons call rest ih =>
      have hStep := (balanced_perform hIndexed call).slots
      have hRest := ih (indexed_perform hIndexed call)
      have hSteps : s.steps (call :: rest) = (s, call) :: (s.perform call).steps rest := rfl
      have hRun : s.run (call :: rest) = (s.perform call).run rest := rfl
      rw [hSteps, hRun, countP_cons_toNat, countP_cons_toNat, countP_cons_toNat, List.map_cons,
        List.sum_cons]
      omega

/-- A count that goes up by one at certain calls has gone up by their number after a run. -/
theorem count_run (count : Store ν → Nat) {p : Call ν → Bool}
    (hStep : ∀ s call, s.slots.Indexed → count (s.perform call) = count s + (p call).toNat)
    {s : Store ν} (hIndexed : s.slots.Indexed) (calls : List (Call ν)) :
    count (s.run calls) = count s + calls.countP p := by
  induction calls generalizing s with
  | nil => rfl
  | cons call rest ih =>
      have hRest : count ((s.perform call).run rest) = count (s.perform call) + rest.countP p :=
        ih (indexed_perform hIndexed call)
      rw [hStep s call hIndexed, Nat.add_assoc, ← countP_cons_toNat] at hRest
      exact hRest

theorem outdated_run {s : Store ν} (hIndexed : s.slots.Indexed)
    (hBefore : s.counters.expirations + s.counters.staleReads ≤ s.counters.misses)
    (calls : List (Call ν)) :
    (s.run calls).counters.expirations + (s.run calls).counters.staleReads ≤
      (s.run calls).counters.misses := by
  induction calls generalizing s with
  | nil => exact hBefore
  | cons call rest ih =>
      have hStep := (balanced_perform hIndexed call).outdated hBefore
      exact ih (indexed_perform hIndexed call) hStep

/-- The books of a store balance after every run from an empty one. The puts that gave a slot to a key
and the reservations granted are as many as the slots held and lost: evicted, dropped by a read,
invalidated, cancelled, or dropped with all others. -/
theorem books_balance (limits : Limits) (tracker : Tracker) (calls : List (Call ν)) :
    let s : Store ν := (empty limits tracker).run calls
    let history := (empty limits tracker).steps calls
    history.countP placesNew + history.countP grants =
        s.size + s.counters.evictions + s.counters.expirations + s.counters.staleReads +
          s.counters.invalidations + history.countP cancels + (history.map dropped).sum ∧
      s.counters.hits + s.counters.misses = calls.countP Call.isGet ∧
      s.counters.expirations + s.counters.staleReads ≤ s.counters.misses ∧
      s.counters.fullInvalidations = calls.countP Call.isInvalidateAll := by
  intro s history
  have hIndexed : (empty limits tracker : Store ν).slots.Indexed := Slots.indexed_empty
  have hNothing : (empty limits tracker : Store ν).accounted = 0 :=
    (Slots.size_empty : (Slots.empty : Slots ν).size = 0)
  refine ⟨?_, ?_, ?_, ?_⟩
  · have hSlots := slots_run hIndexed calls
    rw [hNothing, Nat.zero_add] at hSlots
    exact hSlots
  · have hReads := count_run (fun s => s.counters.hits + s.counters.misses)
      (fun s call hIndexed => (balanced_perform hIndexed call).reads) hIndexed calls
    exact hReads.trans (Nat.zero_add _)
  · exact outdated_run hIndexed (Nat.le_refl 0) calls
  · have hFull := count_run (fun s => s.counters.fullInvalidations)
      (fun s call hIndexed => (balanced_perform hIndexed call).full) hIndexed calls
    exact hFull.trans (Nat.zero_add _)

end Runs

end Store

end NearCache
