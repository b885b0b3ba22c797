import NearCache.Proofs.Store.Effects
import NearCache.Proofs.Store.Order

/-!
How a key that has no slot is given one. It goes into spare room, or into the room of a victim, or is
refused where there is neither; a put and a reservation do the same here. The victim always has a slot,
since the index of ticks is in step with the slots.
-/

namespace NearCache

namespace Slots

variable {ν : Type} {s : Slots ν} {key : Data} {policy : EvictionPolicy} {draw : Nat}

theorem Indexed.contains_of_victim? (h : s.Indexed) (hVictim : s.victim? policy draw = some key) :
    s.contains key = true := by
  cases policy with
  | lru =>
      rw [h.victim?_eq] at hVictim
      exact h.contains_iff_mem.mpr (List.mem_of_mem_head? hVictim)
  | random =>
      have hKey : key ∈ s.byKey.keys := List.mem_of_getElem? hVictim
      exact Std.ExtTreeMap.mem_keys.mp hKey
  | none => cases hVictim

/-- No victim is passed over for want of a slot. -/
theorem Indexed.filter_victim? (h : s.Indexed) :
    (s.victim? policy draw).filter s.contains = s.victim? policy draw := by
  cases hVictim : s.victim? policy draw with
  | none => rfl
  | some key => exact Option.filter_some_pos (h.contains_of_victim? hVictim)

/-- A policy that evicts finds a victim among any slots. -/
theorem Indexed.exists_victim? (h : s.Indexed) (hPolicy : policy ≠ .none) (hSome : 0 < s.size)
    (draw : Nat) : ∃ victim, s.victim? policy draw = some victim := by
  cases policy with
  | lru =>
      have hKeys : 0 < (s.byUse.map Prod.fst).length := by
        rw [List.length_map, h.length_byUse]
        exact hSome
      rw [h.victim?_eq]
      exact ⟨_, List.head?_eq_some_head (List.ne_nil_of_length_pos hKeys)⟩
  | random =>
      have hDraw : draw % s.byKey.size < s.byKey.keys.length := by
        rw [Std.ExtTreeMap.length_keys]
        exact Nat.mod_lt _ hSome
      exact ⟨_, List.getElem?_eq_getElem hDraw⟩
  | none => exact absurd rfl hPolicy

end Slots

namespace Store

variable {ν : Type}

/-- How a key without a slot is admitted or refused, and what becomes of the slots and counters. -/
inductive Admission (s : Store ν) (key : Data) (draw : Nat) (s' : Store ν) : Bool → Prop where
  | spare (hSpare : s.size < s.limits.maxSize) (hSize : s'.size = s.size + 1)
      (hCounters : s'.counters = s.counters) (hPlaced : s'.slots.contains key = true)
      (hOthers : ∀ k, k ≠ key → s'.slots.state? k = s.slots.state? k) :
      Admission s key draw s' true
  | evicted (victim : Data) (hFull : s.limits.maxSize ≤ s.size)
      (hVictim : s.slots.victim? s.limits.eviction draw = some victim) (hSize : s'.size = s.size)
      (hCounters : s'.counters = { s.counters with evictions := s.counters.evictions + 1 })
      (hPlaced : s'.slots.contains key = true)
      (hOthers : ∀ k, k ≠ key →
        s'.slots.state? k = if victim = k then none else s.slots.state? k) :
      Admission s key draw s' true
  | refused (hFull : s.limits.maxSize ≤ s.size)
      (hNone : s.slots.victim? s.limits.eviction draw = none) (hSlots : s'.slots = s.slots)
      (hCounters : s'.counters = s.counters) : Admission s key draw s' false

section Rooms

variable {s : Store ν} {key : Data} {draw : Nat}

/-- Where room was found, a new slot in it makes the admission. -/
theorem Room.admission {room s' : Store ν} {state : SlotState ν} (hRoom : Room s draw (room, true))
    (hNew : s.slots.contains key = false) (hCounters : s'.counters = room.counters)
    (hSize : s'.size = if room.slots.contains key then room.size else room.size + 1)
    (hState : ∀ k, s'.slots.state? k = if key = k then some state else room.slots.state? k) :
    Admission s key draw s' true := by
  have hPlaced : s'.slots.contains key = true := by
    rw [Slots.contains_eq_isSome, hState, if_pos rfl]
    rfl
  cases hRoom with
  | spare hSpare =>
      rw [hNew] at hSize
      refine .spare hSpare hSize hCounters hPlaced ?_
      intro k hOther
      rw [hState, if_neg hOther.symm]
  | evicted victim hFull hVictim hHas =>
      have hGone : (s.evict victim).size + 1 = s.size := s.slots.size_remove victim hHas
      have hStillNew : (s.evict victim).slots.contains key = false :=
        Slots.contains_remove_of_absent hNew
      rw [hStillNew] at hSize
      refine .evicted victim hFull hVictim (hSize.trans hGone) hCounters hPlaced ?_
      intro k hOther
      rw [hState, if_neg hOther.symm]
      exact s.slots.state?_remove victim k

end Rooms

section Insertions

variable {s : Store ν} {key : Data} (hIndexed : s.slots.Indexed)
  (hNew : s.slots.contains key = false) (stamp : Position) (draw : Nat)

include hIndexed hNew

theorem admission_put (value : ν) (now : Instant) :
    Admission s key draw (s.put key value stamp now draw).1 (s.put key value stamp now draw).2 := by
  have hRoom := room_makeRoom s draw
  unfold put
  simp only [slots_withTracker, hNew, makeRoom_withTracker]
  cases hFound : s.makeRoom draw with
  | mk room found =>
      rw [hFound] at hRoom
      cases found with
      | true =>
          exact hRoom.admission hNew rfl (room.slots.size_insert key _)
            fun k => room.slots.state?_insert key k _
      | false =>
          cases hRoom with
          | refused hFull hNone => exact .refused hFull (hIndexed.filter_victim? ▸ hNone) rfl rfl

theorem admission_reserve :
    Admission s key draw (s.reserve key stamp draw).1 (s.reserve key stamp draw).2.isSome := by
  have hRoom := room_makeRoom s draw
  unfold reserve
  simp only [slots_withTracker, hNew, makeRoom_withTracker]
  cases hFound : s.makeRoom draw with
  | mk room found =>
      rw [hFound] at hRoom
      cases found with
      | true =>
          exact hRoom.admission hNew rfl (room.slots.size_reserve key stamp)
            fun k => room.slots.state?_reserve key k stamp
      | false =>
          cases hRoom with
          | refused hFull hNone => exact .refused hFull (hIndexed.filter_victim? ▸ hNone) rfl rfl

end Insertions

end Store

end NearCache
