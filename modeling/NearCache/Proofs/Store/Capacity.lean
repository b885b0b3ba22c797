import NearCache.Proofs.Store.Admission
import NearCache.Proofs.Store.Recency

/-!
What holds of the slots of a store after every run: there are no more of them than the limit allows,
the index of ticks is in step with them, every readable entry stands under its own key, and the
reservations are numbered apart. A key that is inserted into such a store costs at most one other key
its slot.
-/

namespace NearCache

namespace Store

variable {ν : Type}

/-- Every readable entry stands under its own key. -/
def Keyed (s : Store ν) : Prop :=
  ∀ key e, s.slots.state? key = some (.ready e) → e.key = key

/-- The slots, their index and the numbers of the reservations fit together, within the limit. -/
structure Intact (s : Store ν) : Prop where
  bounded : s.size ≤ s.limits.maxSize
  indexed : s.slots.Indexed
  keyed : s.Keyed
  numbered : Numbered s

/-- What the insertion of a key without a slot may do, accepted or refused. -/
structure Inserts (s : Store ν) (key : Data) (s' : Store ν) (accepted : Bool) : Prop where
  placed : s'.slots.contains key = accepted
  /-- At most one other key has lost its slot. -/
  cost : ∃ gone : Option Data, ∀ k, k ≠ key →
    s'.slots.state? k = if gone = some k then none else s.slots.state? k
  evicting : s.limits.eviction ≠ .none → 0 < s.limits.maxSize → accepted = true
  keeping : s.limits.eviction = .none → (accepted = false ↔ s.size = s.limits.maxSize)
  refused : accepted = false → s'.slots = s.slots

section Insertions

variable {s s' : Store ν} {key : Data} {draw : Nat} {accepted : Bool}

theorem Admission.inserts (h : Admission s key draw s' accepted) (hIntact : Intact s)
    (hNew : s.slots.contains key = false) : Inserts s key s' accepted := by
  have hBounded := hIntact.bounded
  cases h with
  | spare hSpare _ _ hPlaced hOthers =>
      exact {
        placed := hPlaced
        cost := ⟨none, hOthers⟩
        evicting := fun _ _ => rfl
        keeping := fun _ => iff_of_false Bool.false_ne_true.symm (Nat.ne_of_lt hSpare)
        refused := fun hRefused => absurd hRefused Bool.false_ne_true.symm }
  | evicted victim _ hVictim _ _ hPlaced hOthers =>
      -- A victim was found, so the policy is one that evicts.
      have hEvicts : s.limits.eviction ≠ .none := by
        intro hNone
        rw [hNone] at hVictim
        cases hVictim
      exact {
        placed := hPlaced
        cost := ⟨some victim, fun k hOther => by simpa using hOthers k hOther⟩
        evicting := fun _ _ => rfl
        keeping := fun hNone => absurd hNone hEvicts
        refused := fun hRefused => absurd hRefused Bool.false_ne_true.symm }
  | refused hFull hNone hSlots _ =>
      refine ⟨hSlots ▸ hNew, ⟨none, ?_⟩, ?_, ?_, ?_⟩
      · intro k _
        rw [hSlots]
        rfl
      · intro hEvicts hLimit
        obtain ⟨victim, hVictim⟩ :=
          hIntact.indexed.exists_victim? hEvicts (Nat.lt_of_lt_of_le hLimit hFull) draw
        cases hNone.symm.trans hVictim
      · intro _
        exact iff_of_true rfl (Nat.le_antisymm hBounded hFull)
      · intro _
        exact hSlots

theorem Admission.bounded (h : Admission s key draw s' accepted)
    (hBounded : s.size ≤ s.limits.maxSize) : s'.size ≤ s.limits.maxSize := by
  cases h with
  | spare hSpare hSize => omega
  | evicted victim hFull hVictim hSize => omega
  | refused hFull hNone hSlots =>
      rw [size, hSlots]
      exact hBounded

end Insertions

/-- What a read does to the number of slots and to the counters. -/
inductive Read (s s' : Store ν) : Prop where
  | missed (hSize : s'.size = s.size)
      (hCounters : s'.counters = { s.counters with misses := s.counters.misses + 1 })
  | expired (hSize : s'.size + 1 = s.size)
      (hCounters : s'.counters =
        { s.counters with
          misses := s.counters.misses + 1
          expirations := s.counters.expirations + 1 })
  | stale (hSize : s'.size + 1 = s.size)
      (hCounters : s'.counters =
        { s.counters with
          misses := s.counters.misses + 1
          staleReads := s.counters.staleReads + 1 })
  | hit (hSize : s'.size = s.size)
      (hCounters : s'.counters = { s.counters with hits := s.counters.hits + 1 })

section Sizes

variable (s : Store ν) (key : Data)

/-- A put over a slot has no need of room. -/
theorem put_of_contains (value : ν) (stamp : Position) (now : Instant) (draw : Nat)
    (h : s.slots.contains key = true) :
    (s.put key value stamp now draw).1.size = s.size ∧
      (s.put key value stamp now draw).1.counters = s.counters := by
  have hSize := s.slots.size_insert key (.ready (.create key value stamp now))
  rw [h, if_pos rfl] at hSize
  unfold put
  simp only [slots_withTracker, h, if_true]
  exact ⟨hSize, rfl⟩

theorem reserve_of_contains (stamp : Position) (draw : Nat) (h : s.slots.contains key = true) :
    s.reserve key stamp draw = (s.withTracker (s.tracker.touch stamp.partition), none) := by
  unfold reserve
  simp only [slots_withTracker, h, if_true]

theorem publish_counts (id : ReservationId) (value : ν) (now : Instant) :
    (s.publish key id value now).1.size = s.size ∧
      (s.publish key id value now).1.counters = s.counters := by
  unfold publish
  cases s.slots.state? key with
  | none => exact ⟨rfl, rfl⟩
  | some state =>
      cases state with
      | ready e => exact ⟨rfl, rfl⟩
      | reserved own stamp =>
          dsimp only
          split_ifs
          · exact ⟨s.slots.size_replace key _, rfl⟩
          · exact ⟨rfl, rfl⟩

theorem cancel_counts (id : ReservationId) :
    (s.cancel key id).1.size + (s.cancel key id).2.toNat = s.size ∧
      (s.cancel key id).1.counters = s.counters := by
  unfold cancel
  split_ifs with hHeld
  · obtain ⟨stamp, hState⟩ := (s.slots.holdsReservation_iff key).mp hHeld
    have hHas : s.slots.contains key = true := by
      rw [Slots.contains_eq_isSome, hState]
      rfl
    exact ⟨s.slots.size_remove key hHas, rfl⟩
  · exact ⟨rfl, rfl⟩

theorem invalidate_counts :
    (s.invalidate key).1.size + (s.invalidate key).2.toNat = s.size ∧
      (s.invalidate key).1.counters =
        { s.counters with
          invalidations := s.counters.invalidations + (s.invalidate key).2.toNat } := by
  unfold invalidate
  split_ifs with hHas
  · exact ⟨s.slots.size_remove key hHas, rfl⟩
  · exact ⟨rfl, rfl⟩

/-- A read finds what it finds in a slot. -/
theorem contains_of_reading {now : Instant} {found : Reading ν} (hReading : s.reading key now = found)
    (hFound : found ≠ .absent) : s.slots.contains key = true := by
  rw [Slots.contains_eq_isSome]
  cases hState : s.slots.state? key with
  | some state => rfl
  | none =>
      have hEntry : s.slots.entry? key = none := by
        unfold Slots.entry?
        rw [hState]
      unfold reading at hReading
      rw [hEntry] at hReading
      exact absurd hReading.symm hFound

theorem read_get (now : Instant) : Read s (s.get key now).1 := by
  unfold get
  cases hReading : s.reading key now with
  | absent => exact .missed rfl rfl
  | expired =>
      have hHas : s.slots.contains key = true := s.contains_of_reading key hReading nofun
      exact .expired (s.slots.size_remove key hHas) rfl
  | stale =>
      have hHas : s.slots.contains key = true := s.contains_of_reading key hReading nofun
      exact .stale (s.slots.size_remove key hHas) rfl
  | hit e =>
      have hHas : s.slots.contains key = true := s.contains_of_reading key hReading nofun
      have hSize := s.slots.size_insert key (.ready (e.read now))
      rw [hHas, if_pos rfl] at hSize
      exact .hit hSize rfl

end Sizes

section Steps

variable {s : Store ν}

theorem Keyed.perform (h : s.Keyed) (call : Call ν) : (s.perform call).Keyed := by
  intro k e hReady
  cases call with
  | put key value stamp now draw =>
      rw [Store.perform, state?_put] at hReady
      split_ifs at hReady with hKey hAccepted
      · cases hReady
        exact hKey
      · exact h k e hReady
  | reserve key stamp draw =>
      cases hAnswer : (s.reserve key stamp draw).2 with
      | none =>
          rw [Store.perform, (s.reserve_of_refused key hAnswer).1] at hReady
          exact h k e hReady
      | some id =>
          obtain ⟨-, -, -, hRest⟩ := s.reserve_of_granted key hAnswer
          rw [Store.perform, hRest] at hReady
          split_ifs at hReady with hKey
          · cases hReady
          · exact h k e hReady
  | publish key id value now =>
      cases hAnswer : (s.publish key id value now).2 with
      | false =>
          rw [Store.perform, s.publish_of_refused key hAnswer] at hReady
          exact h k e hReady
      | true =>
          obtain ⟨stamp, -, hRest⟩ := s.state?_publish key k hAnswer
          rw [Store.perform, hRest] at hReady
          split_ifs at hReady with hKey
          · cases hReady
            exact hKey
          · exact h k e hReady
  | cancel key id =>
      rw [Store.perform, state?_cancel] at hReady
      split_ifs at hReady
      exact h k e hReady
  | get key now =>
      rcases s.state?_get key k now with hSame | ⟨-, old, hOld, hAfter | hAfter⟩
      · exact h k e (hSame.symm.trans hReady)
      · cases hAfter.symm.trans hReady
      · cases hAfter.symm.trans hReady
        exact h k old hOld
  | invalidate key =>
      rw [Store.perform, state?_invalidate] at hReady
      split_ifs at hReady
      exact h k e hReady
  | invalidateAll => cases (s.state?_invalidateAll k).symm.trans hReady
  | clear => cases (s.state?_clear k).symm.trans hReady
  | track tracker => exact h k e hReady

/-- No call leaves more slots than the limit allows. -/
theorem bounded_perform (hIndexed : s.slots.Indexed) (hBounded : s.size ≤ s.limits.maxSize)
    (call : Call ν) : (s.perform call).size ≤ s.limits.maxSize := by
  cases call with
  | put key value stamp now draw =>
      cases hHas : s.slots.contains key with
      | true =>
          rw [perform, (s.put_of_contains key value stamp now draw hHas).1]
          exact hBounded
      | false => exact (admission_put hIndexed hHas stamp draw value now).bounded hBounded
  | reserve key stamp draw =>
      cases hHas : s.slots.contains key with
      | true =>
          rw [perform, s.reserve_of_contains key stamp draw hHas]
          exact hBounded
      | false => exact (admission_reserve hIndexed hHas stamp draw).bounded hBounded
  | publish key id value now =>
      rw [perform, (s.publish_counts key id value now).1]
      exact hBounded
  | cancel key id =>
      have hSize := (s.cancel_counts key id).1
      rw [perform]
      omega
  | get key now =>
      rw [perform]
      cases s.read_get key now with
      | missed hSize => omega
      | expired hSize => omega
      | stale hSize => omega
      | hit hSize => omega
  | invalidate key =>
      have hSize := (s.invalidate_counts key).1
      rw [perform]
      omega
  | invalidateAll => exact s.slots.size_clear.trans_le (Nat.zero_le _)
  | clear => exact s.slots.size_clear.trans_le (Nat.zero_le _)
  | track tracker => exact hBounded

theorem Intact.perform (h : Intact s) (call : Call ν) : Intact (s.perform call) where
  bounded := by
    rw [limits_perform]
    exact bounded_perform h.indexed h.bounded call
  indexed := indexed_perform h.indexed call
  keyed := h.keyed.perform call
  numbered := h.numbered.perform call

end Steps

section Runs

variable (limits : Limits) (tracker : Tracker) (calls : List (Call ν))

theorem intact_empty : Intact (empty limits tracker : Store ν) where
  bounded := Slots.size_empty.trans_le (Nat.zero_le limits.maxSize)
  indexed := Slots.indexed_empty
  keyed key e hReady := by simp [empty] at hReady
  numbered := numbered_empty limits tracker

theorem Intact.run {s : Store ν} (h : Intact s) (calls : List (Call ν)) : Intact (s.run calls) := by
  induction calls generalizing s with
  | nil => exact h
  | cons call rest ih => exact ih (h.perform call)

/-- Every run from an empty store keeps to the limit and keeps slots, index and numbers in step. What
it leads to admits a key that has no slot, by a put or a reservation, at the cost of at most one other
slot, and refuses it only where the store is full and evicts nothing, or has no room at all. -/
theorem intact_and_inserts :
    let s : Store ν := (empty limits tracker).run calls
    s.limits = limits ∧ Intact s ∧
      ∀ key, s.slots.contains key = false →
        (∀ value stamp now draw, Inserts s key (s.put key value stamp now draw).1
          (s.put key value stamp now draw).2) ∧
        (∀ stamp draw, Inserts s key (s.reserve key stamp draw).1
          (s.reserve key stamp draw).2.isSome) := by
  intro s
  have hIntact : Intact s := (intact_empty limits tracker).run calls
  refine ⟨limits_run _ calls, hIntact, ?_⟩
  intro key hNew
  constructor
  · intro value stamp now draw
    exact (admission_put hIntact.indexed hNew stamp draw value now).inserts hIntact hNew
  · intro stamp draw
    exact (admission_reserve hIntact.indexed hNew stamp draw).inserts hIntact hNew

end Runs

/-- A store of one slot that evicts reserves it for a new key, at the cost of the key that had it. -/
theorem intact_and_inserts_full :
    let old : Data := ⟨[1]⟩
    let new : Data := ⟨[2]⟩
    let s := (empty ⟨1, .random, none, none⟩ (.empty 0)).run [.put old 5 ⟨0, 1, 0⟩ 0 0]
    s.slots.contains new = false ∧ (s.reserve new ⟨0, 1, 0⟩ 9).2.isSome = true ∧
      (s.reserve new ⟨0, 1, 0⟩ 9).1.slots.contains old = false := by
  intro old new s
  have hNew : s.slots.contains new = false := by decide
  have hGone : (s.reserve new ⟨0, 1, 0⟩ 9).1.slots.contains old = false := by decide
  have hInserts : Inserts s new (s.reserve new ⟨0, 1, 0⟩ 9).1 (s.reserve new ⟨0, 1, 0⟩ 9).2.isSome :=
    ((intact_and_inserts ⟨1, .random, none, none⟩ (.empty 0) [.put old 5 ⟨0, 1, 0⟩ 0 0]).2.2
      new hNew).2 ⟨0, 1, 0⟩ 9
  exact ⟨hNew, hInserts.evicting (by decide) (by decide), hGone⟩

end Store

end NearCache
