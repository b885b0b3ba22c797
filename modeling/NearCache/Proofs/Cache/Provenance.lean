import NearCache.Proofs.Cache.Run

/-!
No value comes back. What a read finds was stored by the last successful put or publication of its
key, and nothing has discarded the key since: for a put since the put itself, for a publication since
the reservation that it redeemed.
-/

namespace NearCache

namespace Cache

/-- A step gives the key this content: it issues the number, puts the value or publishes it under a
number that the key was reserved under. -/
def Brings (key : Data) (step : Cache × Call) : ReservationId ⊕ Value → Prop
  | .inl id => Issues key id step
  | .inr value => Puts key value step ∨
      ∃ id, Publishes key id value step ∧ step.1.content? key = some (.inl id)

/-- The cache holds under the key what it held before the step, which neither stored nor discarded
anything there. -/
def Keeps (key : Data) (step : Cache × Call) (content : ReservationId ⊕ Value) : Prop :=
  step.1.content? key = some content ∧ ¬Stores key step ∧ ¬Discards key step

/-- The number was issued to the key, and nothing has discarded the key since. -/
def Outstanding (history : List (Cache × Call)) (key : Data) (id : ReservationId) : Prop :=
  History.Since (fun _ step => Issues key id step) (Discards key) history

/-- The value was stored by the last successful put or publication of the key, and nothing has
discarded the key since: for a put since the put itself, for a publication since the number that it
was published under was issued. -/
def Standing (history : List (Cache × Call)) (key : Data) (value : Value) : Prop :=
  History.Since
    (fun before step => Puts key value step ∨
      ∃ id, Publishes key id value step ∧ Outstanding before key id)
    (fun step => Stores key step ∨ Discards key step) history

section Steps

variable {c : Cache} {key : Data} {content : ReservationId ⊕ Value}

theorem content?_put {other bytes : Data} {partition : PartitionId} {now : Instant} {draw : Nat}
    (h : (c.put other bytes partition now draw).1.content? key = some content) :
    Brings key (c, .put other bytes partition now draw) content ∨
      Keeps key (c, .put other bytes partition now draw) content := by
  cases hConvert : c.convert bytes with
  | error e =>
      simp only [put, hConvert] at h
      exact Or.inr ⟨h, by simp [Stores, Puts, Publishes, hConvert], by simp [Discards]⟩
  | ok value =>
      simp only [put, hConvert, content?, withStore, Store.state?_put] at h
      by_cases hKey : other = key
      · simp only [hKey, if_true] at h
        split_ifs at h with hDone
        · cases h
          refine Or.inl (Or.inl ⟨hKey, hConvert, ?_⟩)
          simp [put, hConvert, hKey, hDone]
        · simp at h
      · simp only [hKey, if_false] at h
        split_ifs at h
        · simp at h
        · exact Or.inr ⟨h, by simp [Stores, Puts, Publishes, hKey], by simp [Discards]⟩

theorem content?_reserve {other : Data} {partition : PartitionId} {draw : Nat}
    (h : (c.reserve other partition draw).1.content? key = some content) :
    Brings key (c, .reserve other partition draw) content ∨
      Keeps key (c, .reserve other partition draw) content := by
  have hStores : ¬Stores key (c, .reserve other partition draw) := by
    simp [Stores, Puts, Publishes]
  have hDiscards : ¬Discards key (c, .reserve other partition draw) := by simp [Discards]
  simp only [reserve, content?, withStore] at h
  cases hAnswer : (c.reserve other partition draw).2 with
  | none =>
      rw [(Store.reserve_of_refused _ other hAnswer).1] at h
      exact Or.inr ⟨h, hStores, hDiscards⟩
  | some id =>
      rw [(Store.reserve_of_granted _ other hAnswer).2.2.2] at h
      split_ifs at h with hKey
      · cases h
        exact Or.inl ⟨hKey, hAnswer⟩
      · simp at h
      · exact Or.inr ⟨h, hStores, hDiscards⟩

theorem content?_publish {other : Data} {own : ReservationId} {bytes : Data} {now : Instant}
    (h : (c.publish other own bytes now).1.content? key = some content) :
    Brings key (c, .publish other own bytes now) content ∨
      Keeps key (c, .publish other own bytes now) content := by
  have hDiscards : ¬Discards key (c, .publish other own bytes now) := by simp [Discards]
  cases hConvert : c.convert bytes with
  | error e =>
      -- Bytes that cannot be converted cancel the reservation, and store nothing.
      simp only [publish, hConvert, content?, withStore, Store.state?_cancel] at h
      split_ifs at h
      · simp at h
      · exact Or.inr ⟨h, by simp [Stores, Puts, Publishes, hConvert], hDiscards⟩
  | ok value =>
      simp only [publish, hConvert, content?, withStore] at h
      cases hAnswer : (c.store.publish other own value now).2 with
      | false =>
          rw [Store.publish_of_refused _ other hAnswer] at h
          exact Or.inr ⟨h, by simp [Stores, Puts, Publishes, publish, hConvert, hAnswer], hDiscards⟩
      | true =>
          obtain ⟨stamp, hBefore, hAfter⟩ := c.store.state?_publish other key hAnswer
          rw [hAfter] at h
          split_ifs at h with hKey
          · cases h
            refine Or.inl (Or.inr ⟨own, ⟨hKey, rfl, hConvert, ?_⟩, ?_⟩)
            · simp [publish, hConvert, hAnswer]
            · simp [content?, ← hKey, hBefore, SlotState.content]
          · exact Or.inr ⟨h, by simp [Stores, Puts, Publishes, hKey], hDiscards⟩

theorem content?_get {other : Data} {now : Instant}
    (h : (c.get other now).1.content? key = some content) : c.content? key = some content := by
  simp only [get, content?, withStore] at h
  rcases c.store.state?_get other key now with hSame | ⟨-, e, hBefore, hAfter | hAfter⟩
  · rw [hSame] at h
    exact h
  · simp [hAfter] at h
  · rw [hAfter] at h
    rw [content?, hBefore]
    exact h

theorem content?_cancel {other : Data} {own : ReservationId}
    (h : (c.cancel other own).1.content? key = some content) : c.content? key = some content := by
  simp only [cancel, content?, withStore, Store.state?_cancel] at h
  split_ifs at h
  · simp at h
  · exact h

/-- What a cache holds after a step was brought by the step or was there before and kept by it. -/
theorem content?_perform {call : Call} (h : (c.perform call).content? key = some content) :
    Brings key (c, call) content ∨ Keeps key (c, call) content := by
  cases call with
  | put other bytes partition now draw => exact content?_put h
  | reserve other partition draw => exact content?_reserve h
  | publish other own bytes now => exact content?_publish h
  | cancel other own =>
      exact Or.inr ⟨content?_cancel h, by simp [Stores, Puts, Publishes], by simp [Discards]⟩
  | get other now =>
      exact Or.inr ⟨content?_get h, by simp [Stores, Puts, Publishes], by simp [Discards]⟩
  | invalidate other =>
      simp only [perform, invalidate, content?, withStore, Store.state?_invalidate] at h
      split_ifs at h with hKey
      · simp at h
      · exact Or.inr ⟨h, by simp [Stores, Puts, Publishes], by simp [Discards, hKey]⟩
  | invalidateAll => simp [perform, invalidateAll, content?, withStore] at h
  | clear => simp [perform, clear, content?, withStore] at h
  | downgrade => simp [perform, downgrade, clear, content?, withTracker, withStore] at h
  | event e =>
      simp only [perform, content?] at h
      rcases state?_onEvent c key e with ⟨-, hNone⟩ | ⟨hSpared, hSame⟩
      · simp [hNone] at h
      · rw [hSame] at h
        exact Or.inr ⟨h, by simp [Stores, Puts, Publishes], hSpared⟩
  | _ => exact Or.inr ⟨h, by simp [Stores, Puts, Publishes], by simp [Discards]⟩

end Steps

section Runs

variable {name : String} {config : CacheConfig} {coherence : CoherenceConfig} {calls : List Call}
  {key : Data}

theorem content?_create (name : String) (config : CacheConfig) (coherence : CoherenceConfig)
    (key : Data) : (create name config coherence).content? key = none := by
  simp [create, Store.empty, content?]

theorem outstanding_of_content? {id : ReservationId}
    (h : ((create name config coherence).run calls).content? key = some (.inl id)) :
    Outstanding ((create name config coherence).steps calls) key id := by
  refine History.since_of_run (P := fun c => c.content? key = some (.inl id)) ?_ ?_ h
  · simp [content?_create]
  · intro before call _ hAfter
    rcases content?_perform hAfter with hBrings | ⟨hBefore, -, hSpared⟩
    · exact Or.inl hBrings
    · exact Or.inr ⟨hBefore, hSpared⟩

theorem standing_of_content? {value : Value}
    (h : ((create name config coherence).run calls).content? key = some (.inr value)) :
    Standing ((create name config coherence).steps calls) key value := by
  refine History.since_of_run (P := fun c => c.content? key = some (.inr value)) ?_ ?_ h
  · simp [content?_create]
  · intro before call _ hAfter
    -- A publication found the reservation in place, which leads back to where it was issued.
    rcases content?_perform hAfter with (hPuts | ⟨id, hPublishes, hHeld⟩) | hKeeps
    · exact Or.inl (Or.inl hPuts)
    · exact Or.inl (Or.inr ⟨id, hPublishes, outstanding_of_content? hHeld⟩)
    · exact Or.inr ⟨hKeeps.1, not_or.mpr hKeeps.2⟩

theorem content?_of_get {c : Cache} {now : Instant} {value : Value}
    (h : (c.get key now).2 = some value) : c.content? key = some (.inr value) := by
  obtain ⟨e, hState, rfl⟩ := c.store.state?_of_get key h
  simp [content?, hState, SlotState.content]

end Runs

/-- No value comes back. In every run of a new cache, the value that a read returns was stored by the
last successful put or publication of its key, and nothing has discarded the key since, not even
between the reservation and the publication. -/
theorem standing_of_get (name : String) (config : CacheConfig) (coherence : CoherenceConfig)
    (calls : List Call) (key : Data) (now : Instant) (value : Value)
    (h : (((create name config coherence).run calls).get key now).2 = some value) :
    Standing ((create name config coherence).steps calls) key value :=
  standing_of_content? (content?_of_get h)

/-- An event for another key does not stand between a reservation and its publication. -/
theorem standing_of_get_published :
    let key : Data := ⟨[7]⟩
    let calls : List Call :=
      [.subscribe ⟨"orders", "reg-1", .repairable⟩, .put key ⟨[1]⟩ 3 0 0, .invalidate key,
        .reserve key 3 0, .event (.single (some ⟨[8]⟩) ⟨4, 1, 1⟩), .publish key 1 ⟨[5]⟩ 0]
    let c := create "orders" (.ofName "orders") .default
    ((c.run calls).get key 0).2 = some (.binary ⟨[5]⟩) ∧
      Standing (c.steps calls) key (.binary ⟨[5]⟩) := by
  intro key calls c
  have hRead : ((c.run calls).get key 0).2 = some (.binary ⟨[5]⟩) := by decide
  exact ⟨hRead, standing_of_get _ _ _ calls key 0 _ hRead⟩

end Cache

end NearCache
