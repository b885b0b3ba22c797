import NearCache.Proofs.History
import NearCache.Proofs.Store.Effects

/-!
The protocol of reservations. The store answers the calls of any number of clients one after the
other, in any order; a client publishes or cancels with the number that it was given. Exactly the
holder of a reservation that nothing has ended succeeds.
-/

namespace NearCache

namespace Store

variable {ν : Type}

/-- A call of a store. -/
inductive Call (ν : Type) where
  | put (key : Data) (value : ν) (stamp : Position) (now : Instant) (draw : Nat)
  | reserve (key : Data) (stamp : Position) (draw : Nat)
  | publish (key : Data) (id : ReservationId) (value : ν) (now : Instant)
  | cancel (key : Data) (id : ReservationId)
  | get (key : Data) (now : Instant)
  | invalidate (key : Data)
  | invalidateAll
  | clear
  /-- The tracker that reads consult has moved on. -/
  | track (tracker : Tracker)
deriving DecidableEq

/-- The store after a call. -/
def perform (s : Store ν) : Call ν → Store ν
  | .put key value stamp now draw => (s.put key value stamp now draw).1
  | .reserve key stamp draw => (s.reserve key stamp draw).1
  | .publish key id value now => (s.publish key id value now).1
  | .cancel key id => (s.cancel key id).1
  | .get key now => (s.get key now).1
  | .invalidate key => (s.invalidate key).1
  | .invalidateAll => s.invalidateAll
  | .clear => s.clear
  | .track tracker => s.withTracker tracker

/-- The store after several calls. -/
def run (s : Store ν) (calls : List (Call ν)) : Store ν :=
  History.run perform s calls

/-- The calls, each with the store that met it. -/
def steps (s : Store ν) (calls : List (Call ν)) : List (Store ν × Call ν) :=
  History.steps perform s calls

/-- The number that a step issues, if it is a reservation that was granted. -/
def issued? : Store ν × Call ν → Option ReservationId
  | (s, .reserve key stamp draw) => (s.reserve key stamp draw).2
  | _ => none

/-- The number that a step publishes under, if it succeeds. -/
def published? : Store ν × Call ν → Option ReservationId
  | (s, .publish key id value now) => if (s.publish key id value now).2 then some id else none
  | _ => none

/-- A step issues this number to this key. -/
def Issues (key : Data) (id : ReservationId) : Store ν × Call ν → Prop
  | (s, .reserve other stamp draw) => other = key ∧ (s.reserve other stamp draw).2 = some id
  | _ => False

/-- A step ends the reservation of this key under this number: it removes the key or all keys, puts
the key, publishes or cancels the reservation with success, or evicts the key to make room. -/
def Ends (key : Data) (id : ReservationId) : Store ν × Call ν → Prop
  | (s, .put other _ _ _ draw) => other = key ∨ s.evictee? other draw = some key
  | (s, .reserve other _ draw) => s.evictee? other draw = some key
  | (s, .publish other own value now) =>
    other = key ∧ own = id ∧ (s.publish other own value now).2 = true
  | (s, .cancel other own) => other = key ∧ own = id ∧ (s.cancel other own).2 = true
  | (_, .invalidate other) => other = key
  | (_, .invalidateAll) | (_, .clear) => True
  | (_, .get ..) | (_, .track _) => False

/-- The number was issued to the key, and nothing has ended that reservation since. -/
def Outstanding (history : List (Store ν × Call ν)) (key : Data) (id : ReservationId) : Prop :=
  History.Since (fun _ step => Issues key id step) (Ends key id) history

/-- The slot of the key is reserved under this number. -/
def Reserved (s : Store ν) (key : Data) (id : ReservationId) : Prop :=
  ∃ stamp, s.slots.state? key = some (.reserved id stamp)

section Steps

variable (s : Store ν) (key : Data) (id : ReservationId)

theorem publish_iff_reserved {value : ν} {now : Instant} :
    (s.publish key id value now).2 = true ↔ Reserved s key id :=
  (s.publish_iff key).trans (s.slots.holdsReservation_iff key)

theorem cancel_iff_reserved : (s.cancel key id).2 = true ↔ Reserved s key id :=
  (s.cancel_iff key).trans (s.slots.holdsReservation_iff key)

theorem reserved_put_iff (other : Data) (value : ν) (stamp : Position) (now : Instant)
    (draw : Nat) :
    Reserved (s.put other value stamp now draw).1 key id ↔
      Reserved s key id ∧ ¬Ends key id (s, .put other value stamp now draw) := by
  simp only [Reserved, Ends, state?_put]
  by_cases hKey : other = key
  · simp only [hKey, if_true, true_or, not_true_eq_false, and_false, iff_false]
    split_ifs <;> simp
  · by_cases hEvicted : s.evictee? other draw = some key
    · simp [hKey, hEvicted]
    · simp [hKey, hEvicted]

theorem reserved_reserve_iff (other : Data) (stamp : Position) (draw : Nat) :
    Reserved (s.reserve other stamp draw).1 key id ↔
      Issues key id (s, .reserve other stamp draw) ∨
        (Reserved s key id ∧ ¬Ends key id (s, .reserve other stamp draw)) := by
  cases hAnswer : (s.reserve other stamp draw).2 with
  | none =>
      obtain ⟨hSlots, hKept⟩ := s.reserve_of_refused other hAnswer
      simp [Reserved, Issues, Ends, hAnswer, hSlots, hKept]
  | some new =>
      obtain ⟨hNone, -, -, hRest⟩ := s.reserve_of_granted other hAnswer
      simp only [Reserved, Issues, Ends, hAnswer, hRest]
      by_cases hKey : other = key
      · subst hKey
        simp [hNone]
      · by_cases hEvicted : s.evictee? other draw = some key
        · simp [hKey, hEvicted]
        · simp [hKey, hEvicted]

theorem reserved_publish_iff (other : Data) (own : ReservationId) (value : ν) (now : Instant) :
    Reserved (s.publish other own value now).1 key id ↔
      Reserved s key id ∧ ¬Ends key id (s, .publish other own value now) := by
  cases hAnswer : (s.publish other own value now).2 with
  | false => simp [Ends, hAnswer, s.publish_of_refused other hAnswer]
  | true =>
      obtain ⟨stamp, hState, hRest⟩ := s.state?_publish other key hAnswer
      simp only [Reserved, Ends, hAnswer, hRest]
      by_cases hKey : other = key
      · subst hKey
        simp [hState]
      · simp [hKey]

theorem reserved_cancel_iff (other : Data) (own : ReservationId) :
    Reserved (s.cancel other own).1 key id ↔
      Reserved s key id ∧ ¬Ends key id (s, .cancel other own) := by
  cases hAnswer : (s.cancel other own).2 with
  | false => simp [Ends, hAnswer, s.cancel_of_refused other hAnswer]
  | true =>
      obtain ⟨stamp, hState⟩ := (s.cancel_iff_reserved other own).mp hAnswer
      simp only [Reserved, Ends, hAnswer, state?_cancel]
      by_cases hKey : other = key
      · subst hKey
        simp [hState]
      · simp [hKey]

/-- A read does not touch a reservation. -/
theorem reserved_get_iff (other : Data) (now : Instant) :
    Reserved (s.get other now).1 key id ↔ Reserved s key id := by
  unfold Reserved
  rcases s.state?_get other key now with hSame | ⟨-, e, hBefore, hAfter | hAfter⟩
  · rw [hSame]
  · simp [hBefore, hAfter]
  · simp [hBefore, hAfter]

/-- A step leaves a reservation behind exactly if it issues it, or if the reservation was there and
the step does not end it. -/
theorem reserved_perform_iff (call : Call ν) :
    Reserved (s.perform call) key id ↔
      Issues key id (s, call) ∨ (Reserved s key id ∧ ¬Ends key id (s, call)) := by
  cases call with
  | put other value stamp now draw =>
      simpa [Issues, perform] using reserved_put_iff s key id other value stamp now draw
  | reserve other stamp draw => exact reserved_reserve_iff s key id other stamp draw
  | publish other own value now =>
      simpa [Issues, perform] using reserved_publish_iff s key id other own value now
  | cancel other own => simpa [Issues, perform] using reserved_cancel_iff s key id other own
  | get other now => simpa [Issues, Ends, perform] using reserved_get_iff s key id other now
  | invalidate other =>
      by_cases hKey : other = key
      · simp [Reserved, Issues, Ends, perform, state?_invalidate, hKey]
      · simp [Reserved, Issues, Ends, perform, state?_invalidate, hKey]
  | invalidateAll => simp [Reserved, Issues, Ends, perform]
  | clear => simp [Reserved, Issues, Ends, perform]
  | track tracker => simp [Reserved, Issues, Ends, perform]

/-- A step issues the next number and uses it up, or issues none. -/
theorem issued?_cases (call : Call ν) :
    (issued? (s, call) = none ∧
      (s.perform call).slots.nextReservation = s.slots.nextReservation) ∨
    (issued? (s, call) = some s.slots.nextReservation ∧
      (s.perform call).slots.nextReservation = s.slots.nextReservation + 1) := by
  cases call with
  | put other value stamp now draw =>
      exact Or.inl ⟨rfl, s.nextReservation_put other value stamp now draw⟩
  | reserve other stamp draw =>
      simp only [issued?, perform]
      cases hAnswer : (s.reserve other stamp draw).2 with
      | none => simp [(s.reserve_of_refused other hAnswer).1]
      | some new =>
          obtain ⟨-, rfl, hNext, -⟩ := s.reserve_of_granted other hAnswer
          exact Or.inr ⟨rfl, hNext⟩
  | publish other own value now =>
      exact Or.inl ⟨rfl, s.nextReservation_publish other own value now⟩
  | cancel other own => exact Or.inl ⟨rfl, s.nextReservation_cancel other own⟩
  | get other now => exact Or.inl ⟨rfl, s.nextReservation_get other now⟩
  | invalidate other => exact Or.inl ⟨rfl, s.nextReservation_invalidate other⟩
  | invalidateAll => exact Or.inl ⟨rfl, rfl⟩
  | clear => exact Or.inl ⟨rfl, rfl⟩
  | track tracker => exact Or.inl ⟨rfl, rfl⟩

theorem nextReservation_mono (call : Call ν) :
    s.slots.nextReservation ≤ (s.perform call).slots.nextReservation := by
  rcases issued?_cases s call with ⟨-, hNext⟩ | ⟨-, hNext⟩
  · exact Nat.le_of_eq hNext.symm
  · rw [hNext]
    exact Nat.le_succ _

/-- A number that is issued is the next one, and is used up by it. -/
theorem Issues.number {s : Store ν} {key : Data} {id : ReservationId} {call : Call ν}
    (h : Issues key id (s, call)) :
    id = s.slots.nextReservation ∧ (s.perform call).slots.nextReservation = id + 1 := by
  cases call with
  | reserve other stamp draw =>
      obtain ⟨-, hId, hNext, -⟩ := s.reserve_of_granted other h.2
      exact ⟨hId, hNext⟩
  | _ => exact absurd h (by simp [Issues])

theorem Issues.not_used {s : Store ν} {key : Data} {id : ReservationId} {call : Call ν}
    (h : Issues key id (s, call)) : ¬id < s.slots.nextReservation := by
  rw [h.number.1]
  exact Nat.lt_irrefl _

/-- A step that publishes held the reservation and ends it. -/
theorem reserved_of_published {call : Call ν} (h : published? (s, call) = some id) :
    ∃ key, Reserved s key id ∧ Ends key id (s, call) ∧ ∀ k, ¬Issues k id (s, call) := by
  cases call with
  | publish other own value now =>
      simp only [published?, Option.ite_none_right_eq_some, Option.some.injEq] at h
      obtain ⟨hDone, rfl⟩ := h
      refine ⟨other, (s.publish_iff_reserved other own).mp hDone, ⟨rfl, rfl, hDone⟩, ?_⟩
      exact fun k hIssues => hIssues
  | _ => exact absurd h (by simp [published?])

end Steps

/-- Every reservation has a number that was issued, and no two have the same. -/
structure Numbered (s : Store ν) : Prop where
  issued : ∀ key id, Reserved s key id → id < s.slots.nextReservation
  single : ∀ key other id, Reserved s key id → Reserved s other id → key = other

/-- The number was issued, and no reservation has it any more. -/
def Spent (s : Store ν) (id : ReservationId) : Prop :=
  id < s.slots.nextReservation ∧ ∀ key, ¬Reserved s key id

theorem not_reserved_empty (limits : Limits) (tracker : Tracker) (key : Data)
    (id : ReservationId) : ¬Reserved (empty limits tracker : Store ν) key id := by
  rintro ⟨stamp, hState⟩
  simp [empty] at hState

theorem numbered_empty (limits : Limits) (tracker : Tracker) :
    Numbered (empty limits tracker : Store ν) where
  issued key id h := absurd h (not_reserved_empty limits tracker key id)
  single key _ id h := absurd h (not_reserved_empty limits tracker key id)

theorem Numbered.perform {s : Store ν} (h : Numbered s) (call : Call ν) :
    Numbered (s.perform call) where
  issued key id hHeld := by
    rcases (reserved_perform_iff s key id call).mp hHeld with hIssues | ⟨hBefore, -⟩
    · rw [hIssues.number.2]
      exact Nat.lt_succ_self id
    · exact Nat.lt_of_lt_of_le (h.issued key id hBefore) (nextReservation_mono s call)
  single key other id hHeld hOther := by
    -- Either key may be the one that the call has reserved, but a new number is on no older one.
    rcases (reserved_perform_iff s key id call).mp hHeld with hIssues | ⟨hBefore, -⟩ <;>
      rcases (reserved_perform_iff s other id call).mp hOther with hIssues' | ⟨hBefore', -⟩
    · cases call with
      | reserve k stamp draw => exact hIssues.1.symm.trans hIssues'.1
      | _ => exact absurd hIssues (by simp [Issues])
    · exact absurd (h.issued other id hBefore') hIssues.not_used
    · exact absurd (h.issued key id hBefore) hIssues'.not_used
    · exact h.single key other id hBefore hBefore'

theorem Numbered.run {s : Store ν} (h : Numbered s) (calls : List (Call ν)) :
    Numbered (s.run calls) := by
  induction calls generalizing s with
  | nil => exact h
  | cons call rest ih => exact ih (h.perform call)

theorem Spent.perform {s : Store ν} {id : ReservationId} (h : Spent s id) (call : Call ν) :
    Spent (s.perform call) id := by
  refine ⟨Nat.lt_of_lt_of_le h.1 (nextReservation_mono s call), fun key hHeld => ?_⟩
  rcases (reserved_perform_iff s key id call).mp hHeld with hIssues | ⟨hBefore, -⟩
  · exact absurd h.1 hIssues.not_used
  · exact h.2 key hBefore

/-- A publication spends its number. -/
theorem spent_of_published {s : Store ν} (h : Numbered s) {id : ReservationId} {call : Call ν}
    (hPublished : published? (s, call) = some id) :
    ¬Spent s id ∧ Spent (s.perform call) id := by
  obtain ⟨key, hHeld, hEnds, hNoIssue⟩ := reserved_of_published s id hPublished
  refine ⟨fun hSpent => hSpent.2 key hHeld, ?_, fun other hAfter => ?_⟩
  · exact Nat.lt_of_lt_of_le (h.issued key id hHeld) (nextReservation_mono s call)
  · rcases (reserved_perform_iff s other id call).mp hAfter with hIssues | ⟨hBefore, hOpen⟩
    · exact hNoIssue other hIssues
    -- No other key had the number, so the reservation left over would be the one just ended.
    · rw [h.single other key id hBefore hHeld] at hOpen
      exact hOpen hEnds

section Runs

variable (limits : Limits) (tracker : Tracker) (calls : List (Call ν))

theorem reserved_iff_outstanding (key : Data) (id : ReservationId) :
    Reserved ((empty limits tracker).run calls) key id ↔
      Outstanding ((empty limits tracker).steps calls) key id :=
  History.run_iff_since (P := fun s => Reserved s key id)
    (not_reserved_empty limits tracker key id)
    fun before call _ => reserved_perform_iff (run (empty limits tracker) before) key id call

theorem issued_nodup : (((empty limits tracker).steps calls).filterMap issued?).Nodup := by
  refine History.emissions_nodup (U := fun s id => id < s.slots.nextReservation) calls ?_ ?_
  · intro before call id hUsed
    exact Nat.lt_of_lt_of_le hUsed (nextReservation_mono _ call)
  · intro before call id hIssued
    rcases issued?_cases (run (empty limits tracker) before) call with ⟨hNone, -⟩ | ⟨hSome, hNext⟩
    · exact absurd (hIssued.symm.trans hNone) (by simp)
    · obtain rfl := Option.some.inj (hSome.symm.trans hIssued)
      exact ⟨Nat.lt_irrefl _, Nat.lt_of_lt_of_eq (Nat.lt_succ_self _) hNext.symm⟩

theorem published_nodup : (((empty limits tracker).steps calls).filterMap published?).Nodup := by
  refine History.emissions_nodup (U := Spent) calls ?_ ?_
  · intro before call id hSpent
    exact hSpent.perform call
  · intro before call id hPublished
    exact spent_of_published ((numbered_empty limits tracker).run before) hPublished

/-- The protocol of reservations. After every run, a publication and a cancellation succeed exactly
for a reservation that is outstanding; no number is issued twice and none published twice; and a
publication or cancellation that is refused changes nothing. -/
theorem reservation_protocol :
    (∀ key id value now, (((empty limits tracker).run calls).publish key id value now).2 = true ↔
      Outstanding ((empty limits tracker).steps calls) key id) ∧
    (∀ key id, (((empty limits tracker).run calls).cancel key id).2 = true ↔
      Outstanding ((empty limits tracker).steps calls) key id) ∧
    (((empty limits tracker).steps calls).filterMap issued?).Nodup ∧
    (((empty limits tracker).steps calls).filterMap published?).Nodup ∧
    (∀ key id value now, (((empty limits tracker).run calls).publish key id value now).2 = false →
      (((empty limits tracker).run calls).publish key id value now).1 =
        (empty limits tracker).run calls) ∧
    (∀ key id, (((empty limits tracker).run calls).cancel key id).2 = false →
      (((empty limits tracker).run calls).cancel key id).1 = (empty limits tracker).run calls) := by
  refine ⟨?_, ?_, issued_nodup limits tracker calls, published_nodup limits tracker calls, ?_, ?_⟩
  · intro key id value now
    rw [publish_iff_reserved, reserved_iff_outstanding]
  · intro key id
    rw [cancel_iff_reserved, reserved_iff_outstanding]
  · intro key id value now hRefused
    exact publish_of_refused _ key hRefused
  · intro key id hRefused
    exact cancel_of_refused _ key hRefused

end Runs

/-- A client that comes back after its key was invalidated and reserved again by another client
publishes nothing, while the reservation of the other client is outstanding. -/
theorem reservation_protocol_reserved_again :
    let key : Data := ⟨[7]⟩
    let calls : List (Call Nat) :=
      [.reserve key ⟨0, 1, 0⟩ 0, .invalidate key, .reserve key ⟨0, 1, 0⟩ 0]
    let s := (empty ⟨1, .lru, none, none⟩ (.empty 0)).run calls
    (s.publish key 1 5 0).2 = false ∧ (s.publish key 1 5 0).1 = s ∧
      Outstanding ((empty ⟨1, .lru, none, none⟩ (.empty 0)).steps calls) key 2 := by
  intro key calls s
  have hProtocol := reservation_protocol ⟨1, .lru, none, none⟩ (.empty 0) calls
  have hRefused : (s.publish key 1 5 0).2 = false := by decide
  have hGranted : (s.publish key 2 5 0).2 = true := by decide
  exact ⟨hRefused, hProtocol.2.2.2.2.1 key 1 5 0 hRefused, (hProtocol.1 key 2 5 0).mp hGranted⟩

end Store

end NearCache
