import NearCache.Cache
import NearCache.Proofs.Store.Order
import NearCache.Proofs.Store.Reservation

/-!
Bytes that cannot be held in the format of a cache. Conversion comes before anything else, so a write
that fails on it has not touched the cache, and a publication that fails on it gives up its own
reservation and nothing more.
-/

namespace NearCache

namespace Store

variable {ν : Type} (s : Store ν) {key : Data} {id : ReservationId}

/-- A cancellation by another than the holder of the slot changes nothing. -/
theorem cancel_of_not_reserved (h : ¬Reserved s key id) : (s.cancel key id).1 = s :=
  s.cancel_of_refused key (Bool.eq_false_iff.mpr (mt (s.cancel_iff_reserved key id).mp h))

theorem cancel_of_reserved (h : Reserved s key id) :
    (s.cancel key id).1 = { s with slots := s.slots.remove key } := by
  rw [cancel, if_pos ((s.slots.holdsReservation_iff key).mpr h)]

end Store

namespace Cache

/-- The cache holds objects, and the bytes do not decode to one. -/
def Rejects (c : Cache) (bytes : Data) (e : Error) : Prop :=
  c.config.format = .object ∧ Json.decode bytes = .error e

variable (c : Cache) (key bytes : Data) (id : ReservationId) (now : Instant)
  (partition : PartitionId) (draw : Nat)

theorem convert_eq_error_iff {e : Error} : c.convert bytes = .error e ↔ c.Rejects bytes e := by
  unfold convert Rejects
  cases c.config.format with
  | binary => simp
  | object => cases Json.decode bytes <;> simp [Except.map]

theorem not_rejects_of_binary (h : c.config.format = .binary) (e : Error) : ¬c.Rejects bytes e :=
  fun hRejects => by cases h.symm.trans hRejects.1

/-- What a write answers tells whether the bytes could be converted. -/
theorem put_cases :
    (∃ e, c.Rejects bytes e ∧ c.put key bytes partition now draw = (c, .error e)) ∨
    ((∀ e, ¬c.Rejects bytes e) ∧ ∃ taken, (c.put key bytes partition now draw).2 = .ok taken) := by
  simp only [← convert_eq_error_iff]
  unfold put
  cases c.convert bytes with
  | error e => exact Or.inl ⟨e, rfl, rfl⟩
  | ok value => exact Or.inr ⟨nofun, _, rfl⟩

/-- So does what a publication answers, and one that fails is a cancellation. -/
theorem publish_cases :
    (∃ e, c.Rejects bytes e ∧
      c.publish key id bytes now = (c.withStore (c.store.cancel key id).1, .error e)) ∨
    ((∀ e, ¬c.Rejects bytes e) ∧ ∃ taken, (c.publish key id bytes now).2 = .ok taken) := by
  simp only [← convert_eq_error_iff]
  unfold publish
  cases c.convert bytes with
  | error e => exact Or.inl ⟨e, rfl, rfl⟩
  | ok value => exact Or.inr ⟨nofun, _, rfl⟩

variable {c bytes} in
theorem Rejects.unique {e e' : Error} (h : c.Rejects bytes e) (h' : c.Rejects bytes e') : e = e' :=
  Except.error.inj (h.2.symm.trans h'.2)

theorem put_eq_error_iff (e : Error) :
    (c.put key bytes partition now draw).2 = .error e ↔ c.Rejects bytes e := by
  rcases c.put_cases key bytes now partition draw with ⟨own, hRejects, hPut⟩ | ⟨hNone, taken, hPut⟩
  · rw [hPut]
    exact ⟨fun h => Except.error.inj h ▸ hRejects, fun h => congrArg _ (hRejects.unique h)⟩
  · exact iff_of_false (by simp [hPut]) (hNone e)

theorem publish_eq_error_iff (e : Error) :
    (c.publish key id bytes now).2 = .error e ↔ c.Rejects bytes e := by
  rcases c.publish_cases key bytes id now with ⟨own, hRejects, hPut⟩ | ⟨hNone, taken, hPut⟩
  · rw [hPut]
    exact ⟨fun h => Except.error.inj h ▸ hRejects, fun h => congrArg _ (hRejects.unique h)⟩
  · exact iff_of_false (by simp [hPut]) (hNone e)

/-- What bytes that cannot be converted do to a cache in any state. They fail a write and a
publication, and nothing else does; in binary format no bytes do. A write that fails leaves the cache
as it was, tracker included. A publication that fails takes the slot of the key if that is reserved
under its own number, so that all other slots, their order of use, the counters and the tracker stay;
and if it is not, changes nothing. -/
theorem conversion_failure :
    (∀ e, (c.put key bytes partition now draw).2 = .error e ↔ c.Rejects bytes e) ∧
    (∀ e, (c.publish key id bytes now).2 = .error e ↔ c.Rejects bytes e) ∧
    (c.config.format = .binary →
      (∃ taken, (c.put key bytes partition now draw).2 = .ok taken) ∧
      ∃ taken, (c.publish key id bytes now).2 = .ok taken) ∧
    ∀ e, c.Rejects bytes e →
      c.put key bytes partition now draw = (c, .error e) ∧
      (¬Store.Reserved c.store key id → c.publish key id bytes now = (c, .error e)) ∧
      (Store.Reserved c.store key id →
        let freed := c.store.slots.remove key
        c.publish key id bytes now = (c.withStore { c.store with slots := freed }, .error e) ∧
          (∀ k, freed.state? k = if key = k then none else c.store.slots.state? k) ∧
          (c.store.slots.Indexed →
            freed.Indexed ∧ freed.byUse = c.store.slots.byUse.filter (·.1 ≠ key))) := by
  have hPutFails := c.put_eq_error_iff key bytes now partition draw
  have hPublishFails := c.publish_eq_error_iff key bytes id now
  refine ⟨hPutFails, hPublishFails, fun hBinary => ⟨?_, ?_⟩, fun e hRejects => ⟨?_, ?_⟩⟩
  · rcases c.put_cases key bytes now partition draw with ⟨e, hRejects, -⟩ | ⟨-, hTaken⟩
    · exact absurd hRejects (c.not_rejects_of_binary bytes hBinary e)
    · exact hTaken
  · rcases c.publish_cases key bytes id now with ⟨e, hRejects, -⟩ | ⟨-, hTaken⟩
    · exact absurd hRejects (c.not_rejects_of_binary bytes hBinary e)
    · exact hTaken
  · rcases c.put_cases key bytes now partition draw with ⟨own, hOwn, hPut⟩ | ⟨hNone, -⟩
    · rw [hPut, hOwn.unique hRejects]
    · exact absurd hRejects (hNone e)
  · rcases c.publish_cases key bytes id now with ⟨own, hOwn, hPublish⟩ | ⟨hNone, -⟩
    · rw [hPublish, hOwn.unique hRejects]
      refine ⟨fun hOther => ?_, fun hReserved => ⟨?_, ?_, fun hIndexed => ?_⟩⟩
      · rw [c.store.cancel_of_not_reserved hOther]
        rfl
      · rw [c.store.cancel_of_reserved hReserved]
      · exact c.store.slots.state?_remove key
      · exact ⟨hIndexed.remove key, hIndexed.byUse_remove key⟩
    · exact absurd hRejects (hNone e)

/-- A key that was reserved, invalidated and reserved again by another client. Bytes that are not text
end the second reservation under its number, and do nothing under that of the first. -/
theorem conversion_failure_reserved_again :
    let key : Data := ⟨[7]⟩
    let bytes : Data := ⟨[255]⟩
    let e : Error := .serialization (.decode 1 "<json>")
    let first := ((create "orders" { CacheConfig.ofName "orders" with format := .object }
      .default).reserve key 3 0).1
    let c := ((first.invalidate key).1.reserve key 3 0).1
    c.put key bytes 4 0 0 = (c, .error e) ∧ c.publish key 1 bytes 0 = (c, .error e) ∧
      (c.publish key 2 bytes 0).1.store.slots.state? key = none := by
  intro key bytes e first c
  have hRejects : c.Rejects bytes e := ⟨rfl, by decide⟩
  have hSlot : c.store.slots.state? key = some (.reserved 2 ⟨3, 0, 0⟩) := by decide
  have hStale : ¬Store.Reserved c.store key 1 := by
    rintro ⟨stamp, hState⟩
    cases hSlot.symm.trans hState
  obtain ⟨-, -, -, hFails⟩ := conversion_failure c key bytes 1 0 4 0
  obtain ⟨-, -, -, hFailsOwn⟩ := conversion_failure c key bytes 2 0 4 0
  obtain ⟨hPut, hKept, -⟩ := hFails e hRejects
  obtain ⟨hFreed, hStates, -⟩ := (hFailsOwn e hRejects).2.2 ⟨_, hSlot⟩
  refine ⟨hPut, hKept hStale, ?_⟩
  rw [hFreed]
  exact (hStates key).trans (if_pos rfl)

end Cache

end NearCache
