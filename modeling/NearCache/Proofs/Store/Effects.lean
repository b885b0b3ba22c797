import NearCache.Proofs.Store.Slots
import NearCache.Store.Invalidation

/-!
What the operations of a store do to the slot of one key. A slot of another key is lost to them only
where it is evicted to make room.
-/

namespace NearCache

namespace Store

variable {ν : Type}

/-- The key whose slot is evicted to make room for a slot of this key. A key that has a slot, and a
store that has room, need none. -/
def evictee? (s : Store ν) (key : Data) (draw : Nat) : Option Data :=
  if s.slots.contains key ∨ s.size < s.limits.maxSize then none
  else (s.slots.victim? s.limits.eviction draw).filter s.slots.contains

section Trackers

variable (s : Store ν) (tracker : Tracker)

@[simp]
theorem slots_withTracker : (s.withTracker tracker).slots = s.slots := rfl

@[simp]
theorem limits_withTracker : (s.withTracker tracker).limits = s.limits := rfl

@[simp]
theorem size_withTracker : (s.withTracker tracker).size = s.size := rfl

end Trackers

/-- Evicts the slot of a victim. -/
def evict (s : Store ν) (victim : Data) : Store ν :=
  { s with
    slots := s.slots.remove victim
    counters.evictions := s.counters.evictions + 1 }

/-- How room for one more slot is found, if it is. -/
inductive Room (s : Store ν) (draw : Nat) : Store ν × Bool → Prop where
  | spare (hSpare : s.size < s.limits.maxSize) : Room s draw (s, true)
  | evicted (victim : Data) (hFull : s.limits.maxSize ≤ s.size)
      (hVictim : s.slots.victim? s.limits.eviction draw = some victim)
      (hHas : s.slots.contains victim = true) : Room s draw (s.evict victim, true)
  | refused (hFull : s.limits.maxSize ≤ s.size)
      (hNone : (s.slots.victim? s.limits.eviction draw).filter s.slots.contains = none) :
      Room s draw (s, false)

section Rooms

theorem room_makeRoom (s : Store ν) (draw : Nat) : Room s draw (s.makeRoom draw) := by
  unfold makeRoom
  split_ifs with hSpare
  · exact .spare hSpare
  · have hFull : s.limits.maxSize ≤ s.size := Nat.le_of_not_lt hSpare
    cases hVictim : (s.slots.victim? s.limits.eviction draw).filter s.slots.contains with
    | none => exact .refused hFull hVictim
    | some victim =>
        obtain ⟨hChosen, hHas⟩ := Option.filter_eq_some_iff.mp hVictim
        exact .evicted victim hFull hChosen hHas

/-- Finding room has nothing to do with the tracker. -/
theorem makeRoom_withTracker (s : Store ν) (tracker : Tracker) (draw : Nat) :
    (s.withTracker tracker).makeRoom draw =
      ((s.makeRoom draw).1.withTracker tracker, (s.makeRoom draw).2) := by
  unfold makeRoom
  by_cases hSpare : s.size < s.limits.maxSize
  · simp only [size_withTracker, limits_withTracker, hSpare, if_true]
  · simp only [size_withTracker, limits_withTracker, slots_withTracker, hSpare, if_false]
    cases (s.slots.victim? s.limits.eviction draw).filter s.slots.contains <;> rfl

end Rooms

section Effects

variable (s : Store ν) (key k : Data)

theorem evictee?_of_contains (draw : Nat) (h : s.slots.contains key = true) :
    s.evictee? key draw = none :=
  if_pos (Or.inl h)

/-- Either there is room for a key that is new, and at most the evicted key has paid for it, or there
is none and nothing was evicted. The tracker does not matter. -/
theorem makeRoom_cases (tracker : Tracker) (draw : Nat) (h : s.slots.contains key = false) :
    (∃ room, (s.withTracker tracker).makeRoom draw = (room, true) ∧
      room.slots.nextReservation = s.slots.nextReservation ∧
      ∀ k, room.slots.state? k =
        if s.evictee? key draw = some k then none else s.slots.state? k) ∨
    ((s.withTracker tracker).makeRoom draw = (s.withTracker tracker, false) ∧
      s.evictee? key draw = none) := by
  rw [makeRoom_withTracker]
  have hRoom := room_makeRoom s draw
  generalize s.makeRoom draw = room at hRoom ⊢
  cases hRoom with
  | spare hSpare =>
      have hKept : s.evictee? key draw = none := if_pos (Or.inr hSpare)
      exact Or.inl ⟨s.withTracker tracker, rfl, rfl, by simp [hKept]⟩
  | evicted victim hFull hVictim hHas =>
      have hEvicted : s.evictee? key draw = some victim := by
        rw [evictee?, if_neg (by simp [h, hFull])]
        exact Option.filter_eq_some_iff.mpr ⟨hVictim, hHas⟩
      refine Or.inl ⟨(s.evict victim).withTracker tracker, rfl, rfl, fun k => ?_⟩
      simp only [hEvicted, Option.some.injEq]
      exact s.slots.state?_remove victim k
  | refused hFull hNone =>
      have hKept : s.evictee? key draw = none := by
        rw [evictee?, if_neg (by simp [h, hFull]), hNone]
      exact Or.inr ⟨rfl, hKept⟩

/-- A put fills the slot of its key or, if it is refused, finds the key without a slot. It costs at
most the evicted key its slot. -/
theorem state?_put (value : ν) (stamp : Position) (now : Instant) (draw : Nat) :
    (s.put key value stamp now draw).1.slots.state? k =
      if key = k then
        if (s.put key value stamp now draw).2 then some (.ready (.create key value stamp now))
        else none
      else if s.evictee? key draw = some k then none
      else s.slots.state? k := by
  unfold put
  cases hHas : s.slots.contains key with
  | true => simp [hHas, Slots.state?_insert, evictee?_of_contains s key draw hHas]
  | false =>
      rcases makeRoom_cases s key (s.tracker.touch stamp.partition) draw hHas with
        ⟨room, hRoom, -, hRest⟩ | ⟨hRoom, hKept⟩
      · simp [hHas, hRoom, Slots.state?_insert, hRest]
      -- A put is refused only where the key was not found, so the key is without a slot.
      · have hNone := (s.slots.contains_eq_false_iff key).mp hHas
        by_cases hKey : key = k
        · subst hKey
          simp [hHas, hRoom, hNone]
        · simp [hHas, hRoom, hKept, hKey]

/-- A reservation that is refused leaves the slots as they are. -/
theorem reserve_of_refused {stamp : Position} {draw : Nat}
    (h : (s.reserve key stamp draw).2 = none) :
    (s.reserve key stamp draw).1.slots = s.slots ∧ s.evictee? key draw = none := by
  unfold reserve at h ⊢
  cases hHas : s.slots.contains key with
  | true => simp [hHas, evictee?_of_contains s key draw hHas]
  | false =>
      rcases makeRoom_cases s key (s.tracker.touch stamp.partition) draw hHas with
        ⟨room, hRoom, -, -⟩ | ⟨hRoom, hKept⟩
      · simp [hHas, hRoom] at h
      · simp [hHas, hRoom, hKept]

/-- A reservation is granted to a key without a slot, under the next number. It costs at most the
evicted key its slot. -/
theorem reserve_of_granted {stamp : Position} {draw : Nat} {id : ReservationId}
    (h : (s.reserve key stamp draw).2 = some id) :
    s.slots.state? key = none ∧ id = s.slots.nextReservation ∧
    (s.reserve key stamp draw).1.slots.nextReservation = id + 1 ∧
    ∀ k, (s.reserve key stamp draw).1.slots.state? k =
      if key = k then some (.reserved id stamp)
      else if s.evictee? key draw = some k then none
      else s.slots.state? k := by
  unfold reserve at h ⊢
  cases hHas : s.slots.contains key with
  | true => simp [hHas] at h
  | false =>
      have hNone := (s.slots.contains_eq_false_iff key).mp hHas
      rcases makeRoom_cases s key (s.tracker.touch stamp.partition) draw hHas with
        ⟨room, hRoom, hNext, hRest⟩ | ⟨hRoom, -⟩
      · simp only [slots_withTracker, hHas, hRoom] at h
        cases h
        refine ⟨hNone, hNext, ?_, fun k => ?_⟩
        · simp [hHas, hRoom, Slots.reserve]
        · simp [hHas, hRoom, Slots.state?_reserve, hRest]
      · simp [hHas, hRoom] at h

theorem publish_iff {id : ReservationId} {value : ν} {now : Instant} :
    (s.publish key id value now).2 = true ↔ s.slots.holdsReservation key id = true := by
  unfold publish Slots.holdsReservation
  cases s.slots.state? key with
  | none => simp
  | some state =>
      cases state with
      | ready e => simp
      | reserved own stamp => by_cases hOwn : own = id <;> simp [hOwn]

/-- A publication that is refused leaves the store as it is. -/
theorem publish_of_refused {id : ReservationId} {value : ν} {now : Instant}
    (h : (s.publish key id value now).2 = false) : (s.publish key id value now).1 = s := by
  unfold publish at h ⊢
  cases hState : s.slots.state? key with
  | none => rfl
  | some state =>
      cases state with
      | ready e => rfl
      | reserved own stamp =>
          by_cases hOwn : own = id
          · simp [hState, hOwn] at h
          · simp [hOwn]

/-- A publication turns the reservation into a readable entry with the stamp of the reservation. -/
theorem state?_publish {id : ReservationId} {value : ν} {now : Instant}
    (h : (s.publish key id value now).2 = true) :
    ∃ stamp, s.slots.state? key = some (.reserved id stamp) ∧
      (s.publish key id value now).1.slots.state? k =
        if key = k then some (.ready (.create key value stamp now)) else s.slots.state? k := by
  obtain ⟨stamp, hState⟩ := (s.slots.holdsReservation_iff key).mp ((s.publish_iff key).mp h)
  refine ⟨stamp, hState, ?_⟩
  unfold publish
  simp only [hState, if_true, Slots.state?_replace]
  by_cases hKey : key = k
  · subst hKey
    simp [hState]
  · simp [hKey]

theorem cancel_iff {id : ReservationId} :
    (s.cancel key id).2 = true ↔ s.slots.holdsReservation key id = true := by
  unfold cancel
  split_ifs with hHeld <;> simp [hHeld]

/-- A cancellation that is refused leaves the store as it is. -/
theorem cancel_of_refused {id : ReservationId} (h : (s.cancel key id).2 = false) :
    (s.cancel key id).1 = s := by
  unfold cancel at h ⊢
  split_ifs with hHeld
  · simp [hHeld] at h
  · rfl

theorem state?_cancel (id : ReservationId) :
    (s.cancel key id).1.slots.state? k =
      if key = k ∧ (s.cancel key id).2 then none else s.slots.state? k := by
  unfold cancel
  split_ifs with hHeld hKey hKey <;> simp_all [Slots.state?_remove]

/-- A read leaves every slot as it is, save that the entry it is about may be dropped or marked as
read. -/
theorem state?_get (now : Instant) :
    (s.get key now).1.slots.state? k = s.slots.state? k ∨
      (key = k ∧ ∃ e, s.slots.state? k = some (.ready e) ∧
        ((s.get key now).1.slots.state? k = none ∨
          (s.get key now).1.slots.state? k = some (.ready (e.read now)))) := by
  unfold get reading
  cases hEntry : s.slots.entry? key with
  | none => exact Or.inl rfl
  | some e =>
      by_cases hKey : key = k
      · subst hKey
        refine Or.inr ⟨rfl, e, (s.slots.entry?_eq_some_iff key).mp hEntry, ?_⟩
        dsimp only
        split_ifs <;> simp [Slots.state?_remove, Slots.state?_insert]
      · refine Or.inl ?_
        dsimp only
        split_ifs <;> simp [Slots.state?_remove, Slots.state?_insert, hKey]

/-- A read that finds a value has found it in a readable entry. -/
theorem state?_of_get {now : Instant} {value : ν} (h : (s.get key now).2 = some value) :
    ∃ e, s.slots.state? key = some (.ready e) ∧ e.value = value := by
  unfold get reading at h
  cases hEntry : s.slots.entry? key with
  | none => simp [hEntry] at h
  | some e =>
      refine ⟨e, (s.slots.entry?_eq_some_iff key).mp hEntry, ?_⟩
      simp only [hEntry] at h
      split_ifs at h
      exact Option.some.inj h

theorem state?_invalidate :
    (s.invalidate key).1.slots.state? k = if key = k then none else s.slots.state? k := by
  unfold invalidate
  split_ifs with hHas hKey hKey
  · simp [Slots.state?_remove, hKey]
  · simp [Slots.state?_remove, hKey]
  · subst hKey
    exact (s.slots.contains_eq_false_iff key).mp (Bool.eq_false_iff.mpr hHas)
  · rfl

@[simp]
theorem state?_invalidateAll : s.invalidateAll.slots.state? k = none :=
  s.slots.state?_clear k

@[simp]
theorem state?_clear : s.clear.slots.state? k = none :=
  s.slots.state?_clear k

theorem state?_invalidateKeys (keys : List Data) :
    (s.invalidateKeys keys).1.slots.state? k = if k ∈ keys then none else s.slots.state? k := by
  induction keys generalizing s with
  | nil => simp [invalidateKeys]
  | cons first rest ih =>
      simp only [invalidateKeys, ih, state?_invalidate, List.mem_cons, eq_comm (a := k)]
      by_cases hRest : k ∈ rest
      · simp [hRest]
      · simp [hRest]

theorem state?_applySingle (named : Option Data) (position : Position) :
    (s.applySingle named position).1.slots.state? k =
      if named = none ∨ named = some k then none else s.slots.state? k := by
  cases named with
  | none => exact s.state?_invalidateAll k
  | some key =>
      have hRemoved := s.state?_invalidate key k
      simpa [applySingle, observeAll] using hRemoved

/-- A batch removes the keys that it lists, or all keys if it is malformed or large. -/
theorem state?_applyBatch (highWater : Nat) (keys : List Data) (sources : List SourceId)
    (partitions : List PartitionId) (sequences : List Sequence) :
    (s.applyBatch highWater keys sources partitions sequences).1.slots.state? k =
      if (sources.length ≠ keys.length ∨ partitions.length ≠ keys.length ∨
          sequences.length ≠ keys.length) ∨ highWater ≤ keys.length ∨ k ∈ keys then none
      else s.slots.state? k := by
  unfold applyBatch
  by_cases hUneven : sources.length ≠ keys.length ∨ partitions.length ≠ keys.length ∨
      sequences.length ≠ keys.length
  · simp [hUneven]
  · by_cases hLarge : highWater ≤ keys.length
    · simp [hUneven, hLarge, observeAll]
    · simp [hUneven, hLarge, observeAll, state?_invalidateKeys]

/-- Nothing but a reservation uses up a number. -/
theorem nextReservation_put (value : ν) (stamp : Position) (now : Instant) (draw : Nat) :
    (s.put key value stamp now draw).1.slots.nextReservation = s.slots.nextReservation := by
  unfold put
  cases hHas : s.slots.contains key with
  | true => simp [hHas, Slots.insert]
  | false =>
      rcases makeRoom_cases s key (s.tracker.touch stamp.partition) draw hHas with
        ⟨room, hRoom, hNext, -⟩ | ⟨hRoom, -⟩
      · simp [hHas, hRoom, Slots.insert, hNext]
      · simp [hHas, hRoom]

theorem nextReservation_publish (id : ReservationId) (value : ν) (now : Instant) :
    (s.publish key id value now).1.slots.nextReservation = s.slots.nextReservation := by
  unfold publish
  cases s.slots.state? key with
  | none => rfl
  | some state =>
      cases state with
      | ready e => rfl
      | reserved own stamp =>
          dsimp only
          split_ifs <;> rfl

theorem nextReservation_cancel (id : ReservationId) :
    (s.cancel key id).1.slots.nextReservation = s.slots.nextReservation := by
  unfold cancel
  split_ifs <;> rfl

theorem nextReservation_get (now : Instant) :
    (s.get key now).1.slots.nextReservation = s.slots.nextReservation := by
  unfold get
  cases s.reading key now <;> rfl

theorem nextReservation_invalidate :
    (s.invalidate key).1.slots.nextReservation = s.slots.nextReservation := by
  unfold invalidate
  split_ifs <;> rfl

end Effects

end Store

end NearCache
