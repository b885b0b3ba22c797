import Mathlib.Data.Finset.Card
import NearCache.Proofs.Store.Effects

/-!
A batch of invalidations against its elements, applied one by one. The batch removes all keys before
it moves the tracker, the elements take turns; as neither half looks at the other, both ways end in
the same store.
-/

namespace NearCache

namespace Store

variable {ν : Type}

/-- Applies invalidations of one key each, one after the other, up to the first fault. -/
def applySingles (s : Store ν) : List (Data × Position) → Attempt (Store ν) Unit
  | [] => (s, .ok ())
  | element :: rest =>
    match s.applySingle (some element.1) element.2 with
    | (next, .ok _) => next.applySingles rest
    | (stopped, .error fault) => (stopped, .error fault)

section Halves

variable (s : Store ν) (key : Data)

theorem tracker_invalidate : (s.invalidate key).1.tracker = s.tracker := by
  unfold invalidate
  split_ifs <;> rfl

theorem invalidate_withTracker (t : Tracker) :
    (s.withTracker t).invalidate key = ((s.invalidate key).1.withTracker t, (s.invalidate key).2) := by
  unfold invalidate
  rw [slots_withTracker]
  split_ifs <;> rfl

/-- Removing keys does not look at the tracker. -/
theorem invalidateKeys_withTracker (t : Tracker) (keys : List Data) :
    (s.withTracker t).invalidateKeys keys =
      ((s.invalidateKeys keys).1.withTracker t, (s.invalidateKeys keys).2) := by
  induction keys generalizing s with
  | nil => rfl
  | cons first rest ih => simp only [invalidateKeys, invalidate_withTracker, ih]

theorem tracker_invalidateKeys (keys : List Data) :
    (s.invalidateKeys keys).1.tracker = s.tracker := by
  induction keys generalizing s with
  | nil => rfl
  | cons first rest ih => simp only [invalidateKeys, ih, tracker_invalidate]

variable {s} in
theorem applySingle_of_observed {position : Position} {t : Tracker}
    (h : s.tracker.observe position = .ok t) :
    s.applySingle (some key) position = ((s.invalidate key).1.withTracker t, .ok ()) := by
  simp only [applySingle, observeAll, tracker_invalidate, Tracker.observeAll, h]

variable {s} in
theorem applySingle_of_fault {position : Position} {fault : Fault}
    (h : s.tracker.observe position = .error fault) :
    s.applySingle (some key) position = ((s.invalidate key).1, .error fault) := by
  have hSame : (s.invalidate key).1.withTracker s.tracker = (s.invalidate key).1 := by
    rw [← s.tracker_invalidate key]
    rfl
  simp only [applySingle, observeAll, tracker_invalidate, Tracker.observeAll, h, hSame]

/-- One by one, the elements move the tracker as their positions do in a row, and stop at the same
fault. -/
theorem observeAll_elements (elements : List (Data × Position)) :
    s.tracker.observeAll (elements.map Prod.snd) =
      ((s.applySingles elements).1.tracker, (s.applySingles elements).2) := by
  induction elements generalizing s with
  | nil => rfl
  | cons first rest ih =>
      cases hSeen : s.tracker.observe first.2 with
      | ok t =>
          simp only [applySingles, applySingle_of_observed first.1 hSeen, List.map_cons,
            Tracker.observeAll, hSeen]
          exact ih ((s.invalidate first.1).1.withTracker t)
      | error fault =>
          simp only [applySingles, applySingle_of_fault first.1 hSeen, List.map_cons,
            Tracker.observeAll, hSeen, tracker_invalidate]

/-- Without a fault, the elements may be taken apart: first all removals, then all positions. -/
theorem applySingles_eq (elements : List (Data × Position))
    (h : (s.tracker.observeAll (elements.map Prod.snd)).2 = .ok ()) :
    (s.applySingles elements).1 = (s.invalidateKeys (elements.map Prod.fst)).1.withTracker
      (s.tracker.observeAll (elements.map Prod.snd)).1 := by
  induction elements generalizing s with
  | nil => rfl
  | cons first rest ih =>
      cases hSeen : s.tracker.observe first.2 with
      | ok t =>
          simp only [List.map_cons, Tracker.observeAll, hSeen] at h
          simp only [applySingles, applySingle_of_observed first.1 hSeen, List.map_cons,
            Tracker.observeAll, hSeen, invalidateKeys]
          rw [ih _ h, invalidateKeys_withTracker]
          rfl
      | error fault => simp [Tracker.observeAll, hSeen] at h

theorem contains_invalidate (k : Data) :
    (s.invalidate key).1.slots.contains k = (s.slots.contains k && decide (key ≠ k)) := by
  rw [Slots.contains_eq_isSome, Slots.contains_eq_isSome, state?_invalidate]
  by_cases hKey : key = k <;> simp [hKey]

theorem invalidate_snd : (s.invalidate key).2 = s.slots.contains key := by
  unfold invalidate
  split_ifs with hHas
  · exact hHas.symm
  · exact (Bool.eq_false_iff.mpr hHas).symm

/-- A key that is listed twice has its slot removed once. -/
theorem invalidateKeys_count (keys : List Data) :
    (s.invalidateKeys keys).2 = (keys.toFinset.filter fun k => s.slots.contains k).card := by
  induction keys generalizing s with
  | nil => rfl
  | cons first rest ih =>
      have hRest : (rest.toFinset.filter fun k => (s.invalidate first).1.slots.contains k) =
          (rest.toFinset.filter fun k => s.slots.contains k).erase first := by
        ext k
        simp only [contains_invalidate, Finset.mem_filter, Finset.mem_erase, Bool.and_eq_true,
          decide_eq_true_iff]
        tauto
      rw [invalidateKeys, ih, hRest, invalidate_snd, List.toFinset_cons, Finset.filter_insert]
      generalize hAll : rest.toFinset.filter (fun k => s.slots.contains k) = held
      cases hHas : s.slots.contains first with
      | true =>
          have hCard := Finset.card_erase_add_one (Finset.mem_insert_self first held)
          rw [Finset.erase_insert_eq_erase] at hCard
          simpa using hCard
      | false =>
          have hNew : first ∉ held := by
            rw [← hAll, Finset.mem_filter, hHas]
            simp
          simp [Finset.erase_eq_of_notMem hNew]

end Halves

section Batches

variable (s : Store ν) {highWater : Nat} {keys : List Data} {sources : List SourceId}
  {partitions : List PartitionId} {sequences : List Sequence}

/-- The four lists of a batch have one length. -/
def Fits (keys : List Data) (sources : List SourceId) (partitions : List PartitionId)
    (sequences : List Sequence) : Prop :=
  sources.length = keys.length ∧ partitions.length = keys.length ∧ sequences.length = keys.length

instance : Decidable (Fits keys sources partitions sequences) :=
  inferInstanceAs (Decidable (_ ∧ _ ∧ _))

theorem length_batchPositions (hFits : Fits keys sources partitions sequences) :
    (batchPositions sources partitions sequences).length = keys.length := by
  simp [batchPositions, hFits.1, hFits.2.1, hFits.2.2]

theorem applyBatch_of_fits (hFits : Fits keys sources partitions sequences) :
    let removed := if keys.length ≥ highWater then (s.invalidateAll, BatchOutcome.full)
      else ((s.invalidateKeys keys).1, .perKey (s.invalidateKeys keys).2)
    let seen := s.tracker.observeAll (batchPositions sources partitions sequences)
    s.applyBatch highWater keys sources partitions sequences =
      (removed.1.withTracker seen.1, seen.2.map fun _ => removed.2) := by
  have hEven : ¬(sources.length ≠ keys.length ∨ partitions.length ≠ keys.length ∨
      sequences.length ≠ keys.length) := by
    simp [hFits.1, hFits.2.1, hFits.2.2]
  rw [applyBatch, if_neg hEven]
  by_cases hLarge : keys.length ≥ highWater
  · have hTracker : s.invalidateAll.tracker = s.tracker := rfl
    simp only [hLarge, if_true, observeAll, hTracker]
  · simp only [hLarge, if_false, observeAll, tracker_invalidateKeys]

theorem observeAll_batchPositions (hFits : Fits keys sources partitions sequences) :
    let singles := s.applySingles (keys.zip (batchPositions sources partitions sequences))
    s.tracker.observeAll (batchPositions sources partitions sequences) =
      (singles.1.tracker, singles.2) := by
  have hSeen := s.observeAll_elements (keys.zip (batchPositions sources partitions sequences))
  rwa [List.map_snd_zip (length_batchPositions hFits).le] at hSeen

/-- Below the mark, and unless there is a fault, nothing tells the batch from its elements. -/
theorem fst_applyBatch_of_small (hFits : Fits keys sources partitions sequences)
    (hSmall : keys.length < highWater)
    (hOk : (s.applySingles (keys.zip (batchPositions sources partitions sequences))).2 = .ok ()) :
    (s.applyBatch highWater keys sources partitions sequences).1 =
      (s.applySingles (keys.zip (batchPositions sources partitions sequences))).1 := by
  have hSeen := s.observeAll_elements (keys.zip (batchPositions sources partitions sequences))
  have hSplit := s.applySingles_eq (keys.zip (batchPositions sources partitions sequences))
    (by rw [hSeen]; exact hOk)
  rw [List.map_fst_zip (length_batchPositions hFits).ge,
    List.map_snd_zip (length_batchPositions hFits).le] at hSplit
  rw [applyBatch_of_fits s hFits]
  simp only [Nat.not_le.mpr hSmall, if_false]
  exact hSplit.symm

theorem applyBatch_of_uneven (hUneven : ¬Fits keys sources partitions sequences) :
    s.applyBatch highWater keys sources partitions sequences = (s.invalidateAll, .ok .malformed) := by
  refine if_pos ?_
  by_contra hEven
  simp only [ne_eq, not_or, not_not] at hEven
  exact hUneven hEven

end Batches

/-- A batch whose lists fit together is its elements applied one by one. The tracker comes out the
same in any case, and a fault stops both or neither. Below the high-water mark, and unless there is
a fault, so does the whole store, and the outcome counts the keys of the batch that had a slot. From
the mark on, the store is left empty and counts one full invalidation and nothing else. A batch whose
lists do not fit together empties the store as well, and leaves the tracker as it is. -/
theorem applyBatch_elementwise (s : Store ν) (highWater : Nat) (keys : List Data)
    (sources : List SourceId) (partitions : List PartitionId) (sequences : List Sequence) :
    let batch := s.applyBatch highWater keys sources partitions sequences
    let singles := s.applySingles (keys.zip (batchPositions sources partitions sequences))
    (Fits keys sources partitions sequences →
      batch.1.tracker = singles.1.tracker ∧
      batch.2.map (fun _ => ()) = singles.2 ∧
      (keys.length < highWater → singles.2 = .ok () →
        batch.1 = singles.1 ∧
        batch.2 = .ok (.perKey {key ∈ keys.toFinset | s.slots.contains key}.card)) ∧
      (highWater ≤ keys.length →
        batch.1.size = 0 ∧
        batch.1.counters =
          { s.counters with fullInvalidations := s.counters.fullInvalidations + 1 } ∧
        (singles.2 = .ok () → batch.2 = .ok .full))) ∧
    (¬Fits keys sources partitions sequences →
      batch.1.size = 0 ∧ batch.1.tracker = s.tracker ∧ batch.2 = .ok .malformed) := by
  intro batch singles
  refine ⟨fun hFits => ?_, fun hUneven => ?_⟩
  · have hBatch : batch = _ := s.applyBatch_of_fits hFits
    rw [s.observeAll_batchPositions hFits] at hBatch
    rw [hBatch]
    refine ⟨rfl, ?_, fun hSmall hOk => ⟨?_, ?_⟩, fun hLarge => ?_⟩
    · cases singles.2 <;> rfl
    · rw [← hBatch]
      exact s.fst_applyBatch_of_small hFits hSmall hOk
    · have hResult : (s.applySingles _).2 = .ok () := hOk
      simp only [Nat.not_le.mpr hSmall, if_false, hResult, invalidateKeys_count]
      rfl
    · simp only [hLarge, if_true]
      exact ⟨s.slots.size_clear, rfl, fun hOk => by rw [hOk]; rfl⟩
  · have hBatch : batch = _ := s.applyBatch_of_uneven hUneven
    rw [hBatch]
    exact ⟨s.slots.size_clear, rfl, rfl⟩

/-- A batch that lists a key twice and changes the source midway, taken below the mark and at it, and
the same batch with a number too few. -/
theorem applyBatch_elementwise_rotation :
    let a : Data := ⟨[1]⟩
    let b : Data := ⟨[2]⟩
    let s : Store Nat := ((empty ⟨4, .lru, none, none⟩ (.empty 0)).put a 5 ⟨0, 0, 0⟩ 0 0).1
    let batch (highWater : Nat) := s.applyBatch highWater [a, b, a] [7, 7, 8] [0, 1, 0]
    let singles := s.applySingles [(a, ⟨0, 7, 1⟩), (b, ⟨1, 7, 4⟩), (a, ⟨0, 8, 2⟩)]
    singles.2 = .ok () ∧ batch 10 [1, 4, 2] = (singles.1, .ok (.perKey 1)) ∧
      (batch 3 [1, 4, 2]).1.size = 0 ∧ (batch 3 [1, 4, 2]).2 = .ok .full ∧
      (batch 10 [1, 4]).1.tracker = s.tracker := by
  intro a b s batch singles
  have hFits : Fits [a, b, a] [7, 7, 8] [0, 1, 0] [1, 4, 2] := ⟨rfl, rfl, rfl⟩
  have hUneven : ¬Fits [a, b, a] [7, 7, 8] [0, 1, 0] [1, 4] := by simp [Fits]
  have hOk : singles.2 = .ok () := by decide
  obtain ⟨-, -, hSmall, -⟩ :=
    (applyBatch_elementwise s 10 [a, b, a] [7, 7, 8] [0, 1, 0] [1, 4, 2]).1 hFits
  obtain ⟨-, -, -, hLarge⟩ :=
    (applyBatch_elementwise s 3 [a, b, a] [7, 7, 8] [0, 1, 0] [1, 4, 2]).1 hFits
  obtain ⟨-, hKept, -⟩ :=
    (applyBatch_elementwise s 10 [a, b, a] [7, 7, 8] [0, 1, 0] [1, 4]).2 hUneven
  obtain ⟨hStore, hCount⟩ := hSmall (by decide) hOk
  obtain ⟨hEmpty, -, hFull⟩ := hLarge (by decide)
  have hOne : ({key ∈ [a, b, a].toFinset | s.slots.contains key} : Finset Data).card = 1 := by decide
  rw [hOne] at hCount
  exact ⟨hOk, Prod.ext hStore hCount, hEmpty, hFull hOk, hKept⟩

end Store

end NearCache
