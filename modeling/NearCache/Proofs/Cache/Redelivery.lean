import NearCache.Proofs.Store.Batch
import NearCache.Proofs.Tracker.Replay

/-!
Events that are delivered a second time. What an event removes and what it tells of the partitions
depends on the event and on the subscription alone, so a second delivery finds the slots removed and
the positions told.
-/

namespace NearCache

namespace Slots

variable {ν : Type} {s : Slots ν} {target : Option (List Data)}

/-- Removes the slots of some keys, or all slots. -/
def sweep (s : Slots ν) : Option (List Data) → Slots ν
  | some keys => keys.foldl remove s
  | none => s.clear

/-- There is nothing left to sweep. -/
def Swept (s : Slots ν) : Option (List Data) → Prop
  | some keys => ∀ key ∈ keys, s.contains key = false
  | none => s.byKey = ∅ ∧ s.byTick = ∅

theorem Swept.remove (h : s.Swept target) (key : Data) : (s.remove key).Swept target := by
  cases target with
  | some keys => exact fun k hm => contains_remove_of_absent (h k hm)
  | none =>
      have hAbsent : s.contains key = false := by simp [contains, h.1]
      rwa [s.remove_of_absent key hAbsent]

theorem Swept.clear (target : Option (List Data)) : s.clear.Swept target := by
  cases target with
  | some keys => exact fun k _ => (s.clear.contains_eq_false_iff k).mpr (s.state?_clear k)
  | none => exact ⟨rfl, rfl⟩

theorem Swept.foldl_remove (h : s.Swept target) (keys : List Data) :
    (keys.foldl Slots.remove s).Swept target := by
  induction keys generalizing s with
  | nil => exact h
  | cons first rest ih => exact ih (h.remove first)

/-- What was swept stays so. -/
theorem Swept.sweep (h : s.Swept target) (other : Option (List Data)) :
    (s.sweep other).Swept target := by
  cases other with
  | some keys => exact h.foldl_remove keys
  | none => exact Swept.clear target

theorem swept_sweep (s : Slots ν) (target : Option (List Data)) : (s.sweep target).Swept target := by
  cases target with
  | none => exact ⟨rfl, rfl⟩
  | some keys =>
      induction keys generalizing s with
      | nil => exact fun k hm => absurd hm List.not_mem_nil
      | cons first rest ih =>
          intro k hm
          rcases List.mem_cons.mp hm with rfl | hm
          · have hGone : (s.remove k).Swept (some [k]) := by
              intro other hOther
              rw [List.mem_singleton.mp hOther, contains_eq_false_iff, state?_remove, if_pos rfl]
            exact hGone.foldl_remove rest k (List.mem_singleton_self k)
          · exact ih (s.remove first) k hm

theorem sweep_of_swept (h : s.Swept target) : s.sweep target = s := by
  cases target with
  | none =>
      obtain ⟨hKeys, hTicks⟩ := h
      rw [Slots.sweep, Slots.clear, ← hKeys, ← hTicks]
  | some keys =>
      induction keys with
      | nil => rfl
      | cons first rest ih =>
          have hFirst : s.remove first = s := s.remove_of_absent first (h first List.mem_cons_self)
          rw [Slots.sweep, List.foldl_cons, hFirst]
          exact ih fun k hm => h k (List.mem_cons_of_mem _ hm)

/-- Sweeping again in the same order removes nothing. -/
theorem sweepAll_again (s : Slots ν) (targets : List (Option (List Data))) :
    targets.foldl sweep (targets.foldl sweep s) = targets.foldl sweep s := by
  have hKept : ∀ {s : Slots ν} {target} (rest : List (Option (List Data))), s.Swept target →
      (rest.foldl sweep s).Swept target := by
    intro s target rest h
    induction rest generalizing s with
    | nil => exact h
    | cons first rest ih => exact ih (h.sweep first)
  have hSwept : ∀ target ∈ targets, (targets.foldl sweep s).Swept target := by
    intro target hm
    obtain ⟨before, after, rfl⟩ := List.append_of_mem hm
    rw [List.foldl_append, List.foldl_cons]
    exact hKept after (swept_sweep _ target)
  generalize targets.foldl sweep s = swept at hSwept
  induction targets with
  | nil => rfl
  | cons first rest ih =>
      rw [List.foldl_cons, sweep_of_swept (hSwept first List.mem_cons_self)]
      exact ih fun target hm => hSwept target (List.mem_cons_of_mem _ hm)

end Slots

namespace Store

variable {ν : Type} (s : Store ν)

theorem slots_invalidate (key : Data) : (s.invalidate key).1.slots = s.slots.remove key := by
  unfold invalidate
  split_ifs with hHas
  · rfl
  · exact (s.slots.remove_of_absent key (Bool.eq_false_iff.mpr hHas)).symm

theorem slots_invalidateKeys (keys : List Data) :
    (s.invalidateKeys keys).1.slots = keys.foldl Slots.remove s.slots := by
  induction keys generalizing s with
  | nil => rfl
  | cons first rest ih => simp only [invalidateKeys, ih, slots_invalidate, List.foldl_cons]

variable {highWater : Nat} {keys : List Data} {sources : List SourceId}
  {partitions : List PartitionId} {sequences : List Sequence}

theorem slots_applyBatch :
    (s.applyBatch highWater keys sources partitions sequences).1.slots =
      s.slots.sweep (if Fits keys sources partitions sequences ∧ keys.length < highWater then some keys
        else none) := by
  by_cases hFits : Fits keys sources partitions sequences
  · rw [applyBatch_of_fits s hFits]
    by_cases hSmall : keys.length < highWater
    · simp only [hFits, hSmall, Nat.not_le.mpr hSmall, true_and, if_true, if_false]
      exact s.slots_invalidateKeys keys
    · simp only [hSmall, Nat.not_lt.mp hSmall, and_false, if_true, if_false]
      rfl
  · rw [applyBatch_of_uneven s hFits, if_neg (fun h => hFits h.1)]
    rfl

theorem tracker_applyBatch :
    s.tracker.observeAll (if Fits keys sources partitions sequences then
        batchPositions sources partitions sequences else []) =
      ((s.applyBatch highWater keys sources partitions sequences).1.tracker,
        (s.applyBatch highWater keys sources partitions sequences).2.map fun _ => ()) := by
  by_cases hFits : Fits keys sources partitions sequences
  · rw [applyBatch_of_fits s hFits, if_pos hFits]
    refine Prod.ext rfl ?_
    dsimp only
    cases (s.tracker.observeAll (batchPositions sources partitions sequences)).2 <;> rfl
  · rw [applyBatch_of_uneven s hFits, if_neg hFits]
    rfl

theorem tracker_applySingle (named : Option Data) (position : Position) :
    s.tracker.observeAll [position] =
      ((s.applySingle named position).1.tracker, (s.applySingle named position).2) := by
  cases named with
  | none => rfl
  | some key => rw [← s.tracker_invalidate key]; rfl

end Store

namespace Event

/-- The sequence numbers that an event bears. -/
def sequences : Event → List Sequence
  | .single _ position => [position.sequence]
  | .batch _ _ _ sequences => sequences
  | .legacy _ | .legacyBatch _ => []

/-- An event does not have the shape that the subscription delivers, if there is one. -/
def misfits (e : Event) (shape : Option EventShape) : Bool :=
  shape.any (e.shape ≠ ·)

/-- The slots that an event removes. -/
def sweeps (e : Event) (shape : Option EventShape) (highWater : Nat) : Option (List Data) :=
  if e.misfits shape then none
  else
    match e with
    | .single named _ => named.map ([·])
    | .batch keys sources partitions sequences =>
      if Store.Fits keys sources partitions sequences ∧ keys.length < highWater then some keys else none
    | .legacy _ | .legacyBatch _ => none

/-- The positions that an event tells. -/
def tells (e : Event) (shape : Option EventShape) : List Position :=
  if e.misfits shape then []
  else
    match e with
    | .single _ position => [position]
    | .batch keys sources partitions sequences =>
      if Store.Fits keys sources partitions sequences then
        Store.batchPositions sources partitions sequences
      else []
    | .legacy _ | .legacyBatch _ => []

theorem sequence_mem_of_tells {e : Event} {shape : Option EventShape} {s : Position}
    (h : s ∈ e.tells shape) : s.sequence ∈ e.sequences := by
  unfold tells at h
  split_ifs at h
  · exact absurd h List.not_mem_nil
  cases e with
  | single named position =>
      rw [List.mem_singleton.mp h]
      exact List.mem_singleton_self _
  | batch keys sources partitions sequences =>
      dsimp only at h
      split_ifs at h
      · obtain ⟨⟨source, partition, sequence⟩, hm, rfl⟩ := List.mem_map.mp h
        exact (List.of_mem_zip (List.of_mem_zip hm).2).2
      · exact absurd h List.not_mem_nil
  | legacy named => exact absurd h List.not_mem_nil
  | legacyBatch keys => exact absurd h List.not_mem_nil

end Event

namespace Cache

/-- Delivers several events in order, up to the first fault. -/
def deliverAll (c : Cache) : List Event → Attempt Cache Unit
  | [] => (c, .ok ())
  | e :: rest =>
    match c.onEvent e with
    | (next, .ok _) => next.deliverAll rest
    | (stopped, .error fault) => (stopped, .error fault)

section Events

variable (c : Cache) (e : Event)

theorem applyEvent_effect (h : e.misfits c.eventShape? = false) :
    ∃ store, (c.applyEvent e).1 = c.withStore store ∧
      store.slots = c.store.slots.sweep (e.sweeps c.eventShape? c.highWater) ∧
      c.tracker.observeAll (e.tells c.eventShape?) = (store.tracker, (c.applyEvent e).2) := by
  unfold Event.sweeps Event.tells
  simp only [h]
  cases e with
  | single named position =>
      refine ⟨_, rfl, ?_, c.store.tracker_applySingle named position⟩
      cases named with
      | none => rfl
      | some key => exact c.store.slots_invalidate key
  | batch keys sources partitions sequences =>
      exact ⟨_, rfl, c.store.slots_applyBatch, c.store.tracker_applyBatch⟩
  | legacy named => exact ⟨_, rfl, rfl, rfl⟩
  | legacyBatch keys => exact ⟨_, rfl, rfl, rfl⟩

theorem onEvent_of_fits (h : e.misfits c.eventShape? = false) : c.onEvent e = c.applyEvent e := by
  unfold onEvent
  cases hShape : c.eventShape? with
  | none => rfl
  | some shape =>
      have hFits : e.shape = shape := by simpa [Event.misfits, hShape] using h
      exact if_pos hFits

theorem onEvent_of_misfits (h : e.misfits c.eventShape? = true) :
    c.onEvent e = (c.invalidateAll, .ok ()) := by
  unfold onEvent
  cases hShape : c.eventShape? with
  | none => simp [Event.misfits, hShape] at h
  | some shape =>
      have hOther : e.shape ≠ shape := by simpa [Event.misfits, hShape] using h
      exact if_neg hOther

/-- A delivered event removes slots and tells positions, and does nothing else. -/
theorem onEvent_effect :
    ∃ store, (c.onEvent e).1 = c.withStore store ∧
      store.slots = c.store.slots.sweep (e.sweeps c.eventShape? c.highWater) ∧
      c.tracker.observeAll (e.tells c.eventShape?) = (store.tracker, (c.onEvent e).2) := by
  cases hMisfits : e.misfits c.eventShape? with
  | false => 
      rw [c.onEvent_of_fits e hMisfits]
      exact c.applyEvent_effect e hMisfits
  | true =>
      rw [c.onEvent_of_misfits e hMisfits]
      unfold Event.sweeps Event.tells
      rw [if_pos hMisfits, if_pos hMisfits]
      exact ⟨_, rfl, rfl, rfl⟩

end Events

section Deliveries

variable {c : Cache} {events : List Event}

/-- Events in range are delivered without a fault, each sweeping its slots and telling its
positions. -/
theorem deliverAll_ok (hTracker : c.tracker.Nonnegative)
    (hRange : ∀ e ∈ events, ∀ q ∈ e.sequences, 0 ≤ q ∧ q ≤ maxSequence) :
    ∃ store, c.deliverAll events = (c.withStore store, .ok ()) ∧
      store.slots =
        (events.map fun e => e.sweeps c.eventShape? c.highWater).foldl Slots.sweep c.store.slots ∧
      c.tracker.observeAll (events.flatMap fun e => e.tells c.eventShape?) =
        (store.tracker, .ok ()) := by
  induction events generalizing c with
  | nil => exact ⟨c.store, rfl, rfl, rfl⟩
  | cons first rest ih =>
      obtain ⟨store, hNext, hSlots, hSeen⟩ := c.onEvent_effect first
      have hFirst : ∀ s ∈ first.tells c.eventShape?, 0 ≤ s.sequence ∧ s.sequence ≤ maxSequence :=
        fun s hm => hRange first List.mem_cons_self _ (Event.sequence_mem_of_tells hm)
      obtain ⟨t', hTold, hNonneg, -, -⟩ := Tracker.observeAll_ok hTracker hFirst
      rw [hSeen, Prod.mk.injEq] at hTold
      obtain ⟨rfl, hResult⟩ := hTold
      have hDelivered : c.onEvent first = (c.withStore store, .ok ()) := Prod.ext hNext hResult
      obtain ⟨last, hRest, hSwept, hLast⟩ := ih (c := c.withStore store) hNonneg
        fun e hm => hRange e (List.mem_cons_of_mem _ hm)
      refine ⟨last, ?_, ?_, ?_⟩
      · rw [deliverAll, hDelivered]
        exact hRest
      · rw [List.map_cons, List.foldl_cons, ← hSlots]
        exact hSwept
      · rw [List.flatMap_cons, Tracker.observeAll_append (hSeen.trans (by rw [hResult]))]
        exact hLast

end Deliveries

/-- Events that are delivered a second time in the same order, directly after the first time, leave
all that is known of the partitions and all slots as they are. The events may be of any kind and
any source, and of shapes that the subscription does not deliver. -/
theorem deliverAll_again {c : Cache} {events : List Event} (hTracker : c.tracker.Nonnegative)
    (hRange : ∀ e ∈ events, ∀ q ∈ e.sequences, 0 ≤ q ∧ q ≤ maxSequence) :
    ∃ once twice, c.deliverAll events = (once, .ok ()) ∧ once.deliverAll events = (twice, .ok ()) ∧
      twice.tracker = once.tracker ∧ twice.store.slots = once.store.slots := by
  obtain ⟨once, hOnce, hSlots, hTold⟩ := deliverAll_ok hTracker hRange
  have hPositions : ∀ s ∈ events.flatMap fun e => e.tells c.eventShape?,
      0 ≤ s.sequence ∧ s.sequence ≤ maxSequence := by
    intro s hm
    obtain ⟨e, hEvent, hTells⟩ := List.mem_flatMap.mp hm
    exact hRange e hEvent _ (Event.sequence_mem_of_tells hTells)
  obtain ⟨t, hFirst, hNonneg, -, -⟩ := Tracker.observeAll_ok hTracker hPositions
  obtain ⟨t', hBefore, hAgain⟩ := Tracker.observeAll_again hTracker hPositions
  rw [hTold] at hFirst hBefore
  cases hFirst
  cases hBefore
  have hOnceTracker : (c.withStore once).tracker.Nonnegative := hNonneg
  obtain ⟨twice, hTwice, hSweptAgain, hToldAgain⟩ := deliverAll_ok hOnceTracker hRange
  have hTracker : twice.tracker = once.tracker :=
    congrArg Prod.fst (hToldAgain.symm.trans hAgain)
  have hSlots : twice.slots = once.slots := by
    rw [hSweptAgain]
    exact hSlots ▸ Slots.sweepAll_again _ _
  exact ⟨c.withStore once, c.withStore twice, hOnce, hTwice, hTracker, hSlots⟩

/-- A source that leaves and comes back, one key and many, a batch that does not fit together and an
event of the other shape. -/
theorem deliverAll_again_alternating :
    let key : Data := ⟨[1]⟩
    let c := ((((Cache.create "orders" (.ofName "orders") .default).withTracker
      ((Tracker.empty 10).setState 3 ⟨7, 20, 15, 0⟩)).put key ⟨[9]⟩ 3 0 0).1.installSubscription
        ⟨"orders", "1", .repairable⟩)
    let events : List Event :=
      [.single (some key) ⟨3, 7, 30⟩, .batch [key, ⟨[2]⟩] [8, 7] [3, 3] [5, 2], .single none ⟨4, 8, 1⟩,
        .batch [key] [8] [3] [], .legacy (some key), .single (some key) ⟨3, 7, 9⟩]
    c.tracker.Nonnegative ∧ (∀ e ∈ events, ∀ q ∈ e.sequences, 0 ≤ q ∧ q ≤ maxSequence) ∧
      ∃ once twice, c.deliverAll events = (once, .ok ()) ∧ once.deliverAll events = (twice, .ok ()) ∧
        twice.tracker = once.tracker ∧ twice.store.slots = once.store.slots := by
  intro key c events
  have hEmpty : (Tracker.empty 10).Nonnegative := fun p m h => by simp [Tracker.empty] at h
  have hTracker : c.tracker.Nonnegative := by
    have hKnown : c.tracker = (Tracker.empty 10).setState 3 ⟨7, 20, 15, 0⟩ := by decide
    exact hKnown ▸ hEmpty.setState 3 (by decide)
  have hRange : ∀ e ∈ events, ∀ q ∈ e.sequences, 0 ≤ q ∧ q ≤ maxSequence := by decide
  exact ⟨hTracker, hRange, deliverAll_again hTracker hRange⟩

end Cache

end NearCache
