import NearCache.Proofs.Store.Admission
import NearCache.Proofs.Store.Reservation

/-!
A store that evicts the slot unused for longest, or none at all, as one list of slots in the order of
their last use. The list answers every call like the store and stays equal to it, so the slot that
has to go is always the one whose last put, reservation or hit is the earliest.
-/

namespace NearCache

/-- What comes back from a call of a store. -/
inductive Answer (ν : Type) where
  | done
  | flag (b : Bool)
  | reserved (id : Option ReservationId)
  | value (value : Option ν)
deriving DecidableEq

/-- The key whose slot a call uses: one that is put or reserved with success, or hit by a read. -/
def Store.Call.used? {ν : Type} : Store.Call ν → Answer ν → Option Data
  | .put key .., .flag true => some key
  | .reserve key .., .reserved (some _) => some key
  | .get key _, .value (some _) => some key
  | _, _ => none

/-- A store kept as one list of keys and slots, the longest unused first. -/
structure Recency (ν : Type) where
  limits : Limits
  slots : List (Data × SlotState ν)
  nextReservation : ReservationId
  tracker : Tracker

namespace Recency

variable {ν : Type}

def empty (limits : Limits) (tracker : Tracker) : Recency ν :=
  ⟨limits, [], 1, tracker⟩

def has (r : Recency ν) (key : Data) : Bool :=
  (r.slots.lookup key).isSome

def touch (r : Recency ν) (p : PartitionId) : Recency ν :=
  { r with tracker := r.tracker.touch p }

def drop (r : Recency ν) (key : Data) : Recency ν :=
  { r with slots := r.slots.filter (·.1 ≠ key) }

/-- The slot of a key moves to the end, or is appended there. -/
def use (r : Recency ν) (key : Data) (state : SlotState ν) : Recency ν :=
  { r with slots := r.slots.filter (·.1 ≠ key) ++ [(key, state)] }

/-- A slot at the end is reserved for a key under the next number. -/
def hold (r : Recency ν) (key : Data) (stamp : Position) : Recency ν :=
  { r.use key (.reserved r.nextReservation stamp) with nextReservation := r.nextReservation + 1 }

/-- The slot of a key is filled anew where it stands. -/
def fill (r : Recency ν) (key : Data) (state : SlotState ν) : Recency ν :=
  { r with slots := r.slots.map fun p => if p.1 = key then (key, state) else p }

/-- A full list loses its first slot to make room, if the policy is to evict the longest unused. -/
def makeRoom (r : Recency ν) : Recency ν × Bool :=
  if r.slots.length < r.limits.maxSize then (r, true)
  else
    match r.limits.eviction, r.slots with
    | .lru, _ :: rest => ({ r with slots := rest }, true)
    | _, _ => (r, false)

def put (r : Recency ν) (key : Data) (value : ν) (stamp : Position) (now : Instant) :
    Recency ν × Bool :=
  let r := r.touch stamp.partition
  let room := if r.has key then (r, true) else r.makeRoom
  if room.2 then (room.1.use key (.ready (.create key value stamp now)), true) else (r, false)

def reserve (r : Recency ν) (key : Data) (stamp : Position) : Recency ν × Option ReservationId :=
  let r := r.touch stamp.partition
  let room := if r.has key then (r, false) else r.makeRoom
  if room.2 then (room.1.hold key stamp, some room.1.nextReservation) else (r, none)

def publish (r : Recency ν) (key : Data) (id : ReservationId) (value : ν) (now : Instant) :
    Recency ν × Bool :=
  match r.slots.lookup key with
  | some (.reserved own stamp) =>
    if own = id then (r.fill key (.ready (.create key value stamp now)), true) else (r, false)
  | _ => (r, false)

def cancel (r : Recency ν) (key : Data) (id : ReservationId) : Recency ν × Bool :=
  match r.slots.lookup key with
  | some (.reserved own _) => if own = id then (r.drop key, true) else (r, false)
  | _ => (r, false)

def peek (r : Recency ν) (key : Data) : Option (Entry ν) :=
  match r.slots.lookup key with
  | some (.ready e) => some e
  | _ => none

def get (r : Recency ν) (key : Data) (now : Instant) : Recency ν × Option ν :=
  match r.peek key with
  | none => (r, none)
  | some e =>
    if e.isExpired now r.limits.timeToLive r.limits.maxIdle || r.tracker.isStale e.stamp then
      (r.drop key, none)
    else (r.use key (.ready (e.read now)), some e.value)

def invalidate (r : Recency ν) (key : Data) : Recency ν × Bool :=
  (r.drop key, r.has key)

/-- The list after a call, and what comes back. -/
def respond (r : Recency ν) : Store.Call ν → Recency ν × Answer ν
  | .put key value stamp now _ => ((r.put key value stamp now).1, .flag (r.put key value stamp now).2)
  | .reserve key stamp _ => ((r.reserve key stamp).1, .reserved (r.reserve key stamp).2)
  | .publish key id value now =>
    ((r.publish key id value now).1, .flag (r.publish key id value now).2)
  | .cancel key id => ((r.cancel key id).1, .flag (r.cancel key id).2)
  | .get key now => ((r.get key now).1, .value (r.get key now).2)
  | .invalidate key => ((r.invalidate key).1, .flag (r.invalidate key).2)
  | .invalidateAll | .clear => ({ r with slots := [] }, .done)
  | .track tracker => ({ r with tracker := tracker }, .done)

def perform (r : Recency ν) (call : Store.Call ν) : Recency ν :=
  (r.respond call).1

def run : Recency ν → List (Store.Call ν) → Recency ν :=
  History.run perform

def answers (r : Recency ν) (calls : List (Store.Call ν)) : List (Answer ν) :=
  (History.steps perform r calls).map fun step => (step.1.respond step.2).2

end Recency

namespace Store

variable {ν : Type}

/-- What comes back from a call. -/
def answer : Store ν × Call ν → Answer ν
  | (s, .put key value stamp now draw) => .flag (s.put key value stamp now draw).2
  | (s, .reserve key stamp draw) => .reserved (s.reserve key stamp draw).2
  | (s, .publish key id value now) => .flag (s.publish key id value now).2
  | (s, .cancel key id) => .flag (s.cancel key id).2
  | (s, .get key now) => .value (s.get key now).2
  | (s, .invalidate key) => .flag (s.invalidate key).2
  | (_, .invalidateAll) | (_, .clear) | (_, .track _) => .done

/-- The store read as a list. -/
def recency (s : Store ν) : Recency ν :=
  ⟨s.limits, s.slots.byUse, s.slots.nextReservation, s.tracker⟩

section Room

variable {s : Store ν}

theorem indexed_makeRoom (h : s.slots.Indexed) (draw : Nat) : (s.makeRoom draw).1.slots.Indexed := by
  have hRoom := room_makeRoom s draw
  generalize s.makeRoom draw = room at hRoom ⊢
  cases hRoom with
  | spare => exact h
  | evicted victim => exact h.remove victim
  | refused => exact h

theorem has_recency (h : s.slots.Indexed) (key : Data) : s.recency.has key = s.slots.contains key := by
  rw [Slots.contains_eq_isSome, ← h.lookup_byUse]
  rfl

theorem makeRoom_recency (h : s.slots.Indexed) (hOrdered : s.limits.eviction ≠ .random) (draw : Nat) :
    s.recency.makeRoom = ((s.makeRoom draw).1.recency, (s.makeRoom draw).2) := by
  have hLength : s.recency.slots.length = s.size := h.length_byUse
  have hLimits : s.recency.limits = s.limits := rfl
  unfold Recency.makeRoom makeRoom
  rw [hLength, hLimits]
  by_cases hRoom : s.size < s.limits.maxSize
  · simp only [hRoom, if_true]
  rw [if_neg hRoom, if_neg hRoom]
  cases hPolicy : s.limits.eviction with
  | random => exact absurd hPolicy hOrdered
  | none => rfl
  | lru =>
      rw [h.filter_victim?, h.victim?_eq draw]
      cases hSlots : s.slots.byUse with
      | nil => simp [recency, hSlots]
      | cons first rest =>
          have hRest := h.byUse_remove_first hSlots
          have hNext : (s.slots.remove first.1).nextReservation = s.slots.nextReservation := rfl
          simp [recency, hSlots, hRest, hNext]

theorem makeRoom_of_refused {draw : Nat} (h : (s.makeRoom draw).2 = false) :
    (s.makeRoom draw).1 = s := by
  have hRoom := room_makeRoom s draw
  generalize s.makeRoom draw = room at h hRoom ⊢
  cases hRoom with
  | spare => cases h
  | evicted victim => cases h
  | refused => rfl

end Room

section Answers

variable {s : Store ν}

theorem use_recency (h : s.slots.Indexed) (key : Data) (state : SlotState ν) :
    s.recency.use key state = { s with slots := s.slots.insert key state }.recency := by
  simp only [recency, Recency.use, h.byUse_insert]
  rfl

theorem hold_recency (h : s.slots.Indexed) (key : Data) (stamp : Position) :
    s.recency.hold key stamp = { s with slots := s.slots.reserve key stamp }.recency := by
  simp only [recency, Recency.hold, Recency.use, h.byUse_reserve]
  rfl

theorem drop_recency (h : s.slots.Indexed) (key : Data) :
    s.recency.drop key = { s with slots := s.slots.remove key }.recency := by
  simp only [recency, Recency.drop, h.byUse_remove]
  rfl

theorem fill_recency (s : Store ν) (key : Data) (state : SlotState ν) :
    s.recency.fill key state = { s with slots := s.slots.replace key state }.recency := by
  simp only [recency, Recency.fill, Slots.byUse_replace]
  rfl

/-- The list of a store without slots is empty. -/
theorem cleared_recency (s : Store ν) :
    { s with slots := s.slots.clear }.recency = { s.recency with slots := [] } := by
  simp only [recency, Slots.byUse_clear]
  rfl

theorem lookup_recency (h : s.slots.Indexed) (key : Data) :
    s.recency.slots.lookup key = s.slots.state? key :=
  h.lookup_byUse key

theorem put_recency (h : s.slots.Indexed) (hOrdered : s.limits.eviction ≠ .random) (key : Data)
    (value : ν) (stamp : Position) (now : Instant) (draw : Nat) :
    s.recency.put key value stamp now =
      ((s.put key value stamp now draw).1.recency, (s.put key value stamp now draw).2) := by
  unfold Recency.put put
  -- The tracker moves first and has no part in what follows.
  generalize hTouched : s.withTracker (s.tracker.touch stamp.partition) = t
  have hIndexed : t.slots.Indexed := hTouched ▸ h
  have hEviction : t.limits.eviction ≠ .random := hTouched ▸ hOrdered
  have hSame : s.recency.touch stamp.partition = t.recency := hTouched ▸ rfl
  simp only [hSame, has_recency hIndexed, makeRoom_recency hIndexed hEviction draw]
  cases t.slots.contains key with
  | true => simp [use_recency hIndexed]
  | false =>
      have hAfter := indexed_makeRoom hIndexed draw
      cases hRoom : (t.makeRoom draw).2 with
      | true => simp [hRoom, use_recency hAfter]
      | false => simp [hRoom, makeRoom_of_refused hRoom]

theorem reserve_recency (h : s.slots.Indexed) (hOrdered : s.limits.eviction ≠ .random) (key : Data)
    (stamp : Position) (draw : Nat) :
    s.recency.reserve key stamp =
      ((s.reserve key stamp draw).1.recency, (s.reserve key stamp draw).2) := by
  unfold Recency.reserve reserve
  generalize hTouched : s.withTracker (s.tracker.touch stamp.partition) = t
  have hIndexed : t.slots.Indexed := hTouched ▸ h
  have hEviction : t.limits.eviction ≠ .random := hTouched ▸ hOrdered
  have hSame : s.recency.touch stamp.partition = t.recency := hTouched ▸ rfl
  simp only [hSame, has_recency hIndexed, makeRoom_recency hIndexed hEviction draw]
  cases t.slots.contains key with
  | true => simp
  | false =>
      have hAfter := indexed_makeRoom hIndexed draw
      cases hRoom : (t.makeRoom draw).2 with
      | true =>
          have hNumber : (t.makeRoom draw).1.recency.nextReservation =
              (t.makeRoom draw).1.slots.nextReservation := rfl
          simp [hNumber, hold_recency hAfter]
      | false => simp [makeRoom_of_refused hRoom]

theorem publish_recency (h : s.slots.Indexed) (key : Data) (id : ReservationId) (value : ν)
    (now : Instant) :
    s.recency.publish key id value now =
      ((s.publish key id value now).1.recency, (s.publish key id value now).2) := by
  unfold Recency.publish publish
  rw [lookup_recency h]
  cases s.slots.state? key with
  | none => rfl
  | some state =>
      cases state with
      | ready e => rfl
      | reserved own stamp => by_cases hOwn : own = id <;> simp [hOwn, fill_recency]

theorem cancel_recency (h : s.slots.Indexed) (key : Data) (id : ReservationId) :
    s.recency.cancel key id = ((s.cancel key id).1.recency, (s.cancel key id).2) := by
  unfold Recency.cancel cancel Slots.holdsReservation
  rw [lookup_recency h]
  cases s.slots.state? key with
  | none => simp
  | some state =>
      cases state with
      | ready e => simp
      | reserved own stamp => by_cases hOwn : own = id <;> simp [hOwn, drop_recency h]

theorem invalidate_recency (h : s.slots.Indexed) (key : Data) :
    s.recency.invalidate key = ((s.invalidate key).1.recency, (s.invalidate key).2) := by
  unfold Recency.invalidate invalidate
  rw [has_recency h, drop_recency h]
  cases hHas : s.slots.contains key with
  | true => rfl
  | false => rw [s.slots.remove_of_absent key hHas]; rfl

theorem peek_recency (h : s.slots.Indexed) (key : Data) : s.recency.peek key = s.peek key := by
  unfold Recency.peek
  rw [lookup_recency h]
  rfl

theorem get_recency (h : s.slots.Indexed) (key : Data) (now : Instant) :
    s.recency.get key now = ((s.get key now).1.recency, (s.get key now).2) := by
  unfold Recency.get get reading
  rw [peek_recency h, peek]
  cases s.slots.entry? key with
  | none => rfl
  | some e =>
      have hLimits : s.recency.limits = s.limits := rfl
      have hTracker : s.recency.tracker = s.tracker := rfl
      by_cases hExpired : e.isExpired now s.limits.timeToLive s.limits.maxIdle = true
      · simp [hLimits, hExpired, drop_recency h]
        rfl
      · by_cases hStale : s.tracker.isStale e.stamp = true
        · simp [hLimits, hTracker, hExpired, hStale, drop_recency h]
          rfl
        · simp [hLimits, hTracker, hExpired, hStale, use_recency h]
          rfl

end Answers

section Steps

variable {s : Store ν}

theorem indexed_put (h : s.slots.Indexed) (key : Data) (value : ν) (stamp : Position)
    (now : Instant) (draw : Nat) : (s.put key value stamp now draw).1.slots.Indexed := by
  unfold put
  generalize hTouched : s.withTracker (s.tracker.touch stamp.partition) = t
  have hIndexed : t.slots.Indexed := hTouched ▸ h
  cases hHas : t.slots.contains key with
  | true => simpa [hHas] using hIndexed.insert key _
  | false =>
      have hRoom := indexed_makeRoom hIndexed draw
      cases hFound : (t.makeRoom draw).2 with
      | true => simpa [hHas, hFound] using hRoom.insert key _
      | false => simpa [hHas, hFound] using hRoom

theorem indexed_reserve (h : s.slots.Indexed) (key : Data) (stamp : Position) (draw : Nat) :
    (s.reserve key stamp draw).1.slots.Indexed := by
  unfold reserve
  generalize hTouched : s.withTracker (s.tracker.touch stamp.partition) = t
  have hIndexed : t.slots.Indexed := hTouched ▸ h
  cases hHas : t.slots.contains key with
  | true => simpa [hHas] using hIndexed
  | false =>
      have hRoom := indexed_makeRoom hIndexed draw
      cases hFound : (t.makeRoom draw).2 with
      | true => simpa [hHas, hFound] using hRoom.reserve key stamp
      | false => simpa [hHas, hFound] using hRoom

theorem indexed_publish (h : s.slots.Indexed) (key : Data) (id : ReservationId) (value : ν)
    (now : Instant) : (s.publish key id value now).1.slots.Indexed := by
  unfold publish
  cases s.slots.state? key with
  | none => exact h
  | some state =>
      cases state with
      | ready e => exact h
      | reserved own stamp =>
          dsimp only
          split_ifs
          · exact h.replace key _
          · exact h

theorem indexed_get (h : s.slots.Indexed) (key : Data) (now : Instant) :
    (s.get key now).1.slots.Indexed := by
  unfold get
  cases s.reading key now with
  | absent => exact h
  | expired => exact h.remove key
  | stale => exact h.remove key
  | hit e => exact h.insert key _

theorem indexed_cancel (h : s.slots.Indexed) (key : Data) (id : ReservationId) :
    (s.cancel key id).1.slots.Indexed := by
  unfold cancel
  split_ifs
  · exact h.remove key
  · exact h

theorem indexed_invalidate (h : s.slots.Indexed) (key : Data) :
    (s.invalidate key).1.slots.Indexed := by
  unfold invalidate
  split_ifs
  · exact h.remove key
  · exact h

theorem limits_makeRoom (s : Store ν) (draw : Nat) : (s.makeRoom draw).1.limits = s.limits := by
  have hRoom := room_makeRoom s draw
  generalize s.makeRoom draw = room at hRoom ⊢
  cases hRoom <;> rfl

theorem limits_perform (s : Store ν) (call : Call ν) : (s.perform call).limits = s.limits := by
  cases call with
  | put key value stamp now draw =>
      dsimp only [perform, put]
      split_ifs <;> simp [limits_makeRoom]
  | reserve key stamp draw =>
      dsimp only [perform, reserve]
      split_ifs <;> simp [limits_makeRoom]
  | publish key id value now =>
      dsimp only [perform, publish]
      cases s.slots.state? key with
      | none => rfl
      | some state =>
          cases state with
          | ready e => rfl
          | reserved own stamp =>
              dsimp only
              split_ifs <;> rfl
  | cancel key id =>
      dsimp only [perform, cancel]
      split_ifs <;> rfl
  | get key now =>
      dsimp only [perform, get]
      cases s.reading key now <;> rfl
  | invalidate key =>
      dsimp only [perform, invalidate]
      split_ifs <;> rfl
  | invalidateAll => rfl
  | clear => rfl
  | track tracker => rfl

/-- The index stays in step with the slots whatever is called. -/
theorem indexed_perform (h : s.slots.Indexed) (call : Call ν) : (s.perform call).slots.Indexed := by
  cases call with
  | put key value stamp now draw => exact indexed_put h key value stamp now draw
  | reserve key stamp draw => exact indexed_reserve h key stamp draw
  | publish key id value now => exact indexed_publish h key id value now
  | cancel key id => exact indexed_cancel h key id
  | get key now => exact indexed_get h key now
  | invalidate key => exact indexed_invalidate h key
  | invalidateAll => exact Slots.indexed_clear
  | clear => exact Slots.indexed_clear
  | track tracker => exact h

/-- The list answers a call like the store and stays equal to it. -/
theorem respond_recency (h : s.slots.Indexed) (hOrdered : s.limits.eviction ≠ .random)
    (call : Call ν) : s.recency.respond call = ((s.perform call).recency, answer (s, call)) := by
  cases call with
  | put key value stamp now draw =>
      rw [Recency.respond, put_recency h hOrdered key value stamp now draw]
      rfl
  | reserve key stamp draw =>
      rw [Recency.respond, reserve_recency h hOrdered key stamp draw]
      rfl
  | publish key id value now =>
      rw [Recency.respond, publish_recency h]
      rfl
  | cancel key id =>
      rw [Recency.respond, cancel_recency h]
      rfl
  | get key now =>
      rw [Recency.respond, get_recency h]
      rfl
  | invalidate key =>
      rw [Recency.respond, invalidate_recency h]
      rfl
  | invalidateAll => exact congrArg (·, Answer.done) (cleared_recency s).symm
  | clear => exact congrArg (·, Answer.done) (cleared_recency s).symm
  | track tracker => rfl

end Steps

section Runs

variable (s : Store ν)

theorem indexed_run {s : Store ν} (h : s.slots.Indexed) (calls : List (Call ν)) :
    (s.run calls).slots.Indexed := by
  induction calls generalizing s with
  | nil => exact h
  | cons call rest ih => exact ih (indexed_perform h call)

theorem limits_run (calls : List (Call ν)) : (s.run calls).limits = s.limits := by
  induction calls generalizing s with
  | nil => rfl
  | cons call rest ih => exact (ih (s.perform call)).trans (s.limits_perform call)

variable {s} in
/-- The list answers all calls of a run like the store and is equal to it in the end. -/
theorem run_recency (h : s.slots.Indexed) (hOrdered : s.limits.eviction ≠ .random)
    (calls : List (Call ν)) :
    s.recency.answers calls = (s.steps calls).map answer ∧
      s.recency.run calls = (s.run calls).recency := by
  induction calls generalizing s with
  | nil => exact ⟨rfl, rfl⟩
  | cons call rest ih =>
      have hStep := respond_recency h hOrdered call
      have hPerformed : s.recency.perform call = (s.perform call).recency := congrArg Prod.fst hStep
      have hLimits : (s.perform call).limits.eviction ≠ .random := by
        rwa [limits_perform]
      obtain ⟨hAnswers, hRun⟩ := ih (indexed_perform h call) hLimits
      rw [← hPerformed] at hAnswers hRun
      refine ⟨?_, hRun⟩
      exact congrArg₂ List.cons (congrArg Prod.snd hStep) hAnswers

end Runs

end Store

end NearCache
