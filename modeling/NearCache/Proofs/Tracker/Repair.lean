import Mathlib.Data.Finset.Card
import NearCache.Proofs.Tracker.Run

/-!
Repair of gaps, counted exactly. Where numbers are counted as missed, the floor lies below the latest
number; this is what every operation keeps, and why each partition that repair counts is one whose
floor it raises.
-/

namespace NearCache

namespace PartitionState

variable {m : PartitionState} {tolerance : Int}

theorem repairGap_initial (tolerance : Int) : initial.repairGap tolerance = initial := by
  unfold repairGap
  split_ifs <;> rfl

theorem missed_repairGap_le (hTolerance : 0 ≤ tolerance) :
    (m.repairGap tolerance).missed ≤ tolerance := by
  by_cases hExceeds : tolerance < m.missed
  · rw [repairGap_of_lt hExceeds]
    exact hTolerance
  · rw [repairGap_of_le (Int.not_lt.mp hExceeds)]
    exact Int.not_lt.mp hExceeds

/-- The floor rises exactly where more was missed than tolerated. -/
theorem Sound.floor_lt_repairGap_iff (h : m.Sound) (hTolerance : 0 ≤ tolerance) :
    m.floor < (m.repairGap tolerance).floor ↔ tolerance < m.missed := by
  constructor
  · intro hRaised
    apply Int.lt_of_not_ge
    intro hTolerated
    rw [repairGap_of_le hTolerated] at hRaised
    exact Int.lt_irrefl _ hRaised
  · intro hExceeds
    rw [repairGap_of_lt hExceeds]
    exact h.floor_lt (Int.lt_of_le_of_lt hTolerance hExceeds)

end PartitionState

namespace Tracker

variable (t : Tracker) {p : PartitionId}

/-- The partitions that missed more than is tolerated. -/
def overdue : List PartitionId :=
  (t.partitions.toList.filter fun p => p.2.exceeds t.tolerance).map Prod.fst

theorem length_overdue : t.overdue.length = t.gapCount := by
  rw [overdue, List.length_map, gapCount, List.countP_eq_length_filter]

theorem nodup_overdue : t.overdue.Nodup := by
  have hKeys : (t.partitions.toList.map Prod.fst).Nodup := by
    rw [Std.ExtTreeMap.map_fst_toList_eq_keys]
    exact t.partitions.nodup_keys
  exact hKeys.sublist (List.filter_sublist.map Prod.fst)

theorem mem_overdue_iff (hTolerance : 0 ≤ t.tolerance) :
    p ∈ t.overdue ↔ t.tolerance < (t.state p).missed := by
  simp only [overdue, List.mem_map, List.mem_filter, Prod.exists,
    Std.ExtTreeMap.mem_toList_iff_getElem?_eq_some, PartitionState.exceeds, decide_eq_true_eq]
  constructor
  · rintro ⟨q, m, ⟨hKnown, hExceeds⟩, rfl⟩
    rwa [state_of_known t q hKnown]
  · intro hExceeds
    cases hKnown : t.partitions[p]? with
    | none =>
        have hInitial : t.state p = .initial := by rw [state, hKnown]; rfl
        rw [hInitial] at hExceeds
        exact absurd hTolerance (Int.not_le.mpr hExceeds)
    | some m =>
        rw [state_of_known t p hKnown] at hExceeds
        exact ⟨p, m, ⟨hKnown, hExceeds⟩, rfl⟩

theorem state_repairGaps (p : PartitionId) :
    t.repairGaps.1.state p = (t.state p).repairGap t.tolerance := by
  unfold state
  rw [getElem?_repairGaps]
  cases t.partitions[p]? with
  | none => exact (PartitionState.repairGap_initial t.tolerance).symm
  | some m => rfl

/-- No partition has missed more than is tolerated. -/
def Tolerated : Prop :=
  ∀ (p : PartitionId) (m : PartitionState), t.partitions[p]? = some m → m.missed ≤ t.tolerance

variable {t}

theorem Tolerated.gapCount_eq (h : t.Tolerated) : t.gapCount = 0 := by
  apply List.countP_eq_zero.mpr
  intro known hm hExceeds
  have hTolerated := h known.1 known.2 (Std.ExtTreeMap.mem_toList_iff_getElem?_eq_some.mp hm)
  exact absurd hTolerated (Int.not_le.mpr (of_decide_eq_true hExceeds))

/-- Where nothing exceeds what is tolerated, repair has nothing to do. -/
theorem Tolerated.repairGaps_eq (h : t.Tolerated) : t.repairGaps = (t, 0) := by
  have hPartitions : (t.partitions.map fun _ m => m.repairGap t.tolerance) = t.partitions := by
    apply Std.ExtTreeMap.ext_getElem?
    intro p
    rw [Std.ExtTreeMap.getElem?_map]
    cases hKnown : t.partitions[p]? with
    | none => rfl
    | some m => exact congrArg some (PartitionState.repairGap_of_le (h p m hKnown))
  rw [repairGaps, hPartitions, h.gapCount_eq]

theorem getElem?_repairGaps_of_not_mem (hTolerance : 0 ≤ t.tolerance) (hOther : p ∉ t.overdue) :
    t.repairGaps.1.partitions[p]? = t.partitions[p]? := by
  rw [mem_overdue_iff t hTolerance] at hOther
  rw [getElem?_repairGaps]
  cases hKnown : t.partitions[p]? with
  | none => rfl
  | some m =>
      rw [state_of_known t p hKnown] at hOther
      exact congrArg some (PartitionState.repairGap_of_le (Int.not_lt.mp hOther))

theorem tolerated_repairGaps (hTolerance : 0 ≤ t.tolerance) : t.repairGaps.1.Tolerated := by
  intro p m hKnown
  rw [getElem?_repairGaps] at hKnown
  obtain ⟨before, -, rfl⟩ := Option.map_eq_some_iff.mp hKnown
  exact PartitionState.missed_repairGap_le hTolerance

theorem tolerance_run (t : Tracker) (ops : List Op) : (t.run ops).tolerance = t.tolerance := by
  apply run_induction (P := fun t' => t'.tolerance = t.tolerance)
  · intro t' op _ hSingle hSame
    exact (tolerance_perform t' hSingle).trans hSame
  · rfl

/-- Whatever a tracker has been through, what it knows of every partition is sound, and repair counts
exactly the partitions whose floor it raises. It leaves the other partitions as they are and no source
and no latest number changed; afterwards no more is missed than tolerated, and repeating it finds
nothing to do. -/
theorem repair_counts_raised {tolerance : Int} (hTolerance : 0 ≤ tolerance) (ops : List Op) :
    let t := (empty tolerance).run ops
    let repaired := t.repairGaps.1
    (∀ (p : PartitionId) (m : PartitionState), t.partitions[p]? = some m → m.Sound) ∧
    (∃ raised : Finset PartitionId,
      (∀ p, p ∈ raised ↔ (t.state p).floor < (repaired.state p).floor) ∧
      t.repairGaps.2 = raised.card ∧
      ∀ p, p ∉ raised → repaired.partitions[p]? = t.partitions[p]?) ∧
    (∀ p : PartitionId, repaired.partitions[p]?.map (fun m => (m.source, m.latest)) =
      t.partitions[p]?.map fun m => (m.source, m.latest)) ∧
    (∀ (p : PartitionId) (m : PartitionState), repaired.partitions[p]? = some m → m.missed ≤ tolerance) ∧
    repaired.repairGaps = (repaired, 0) := by
  intro t repaired
  have hSame : t.tolerance = tolerance := tolerance_run (empty tolerance) ops
  have hSound : Sound t := (sound_empty tolerance).run ops
  have hKept : 0 ≤ t.tolerance := hSame ▸ hTolerance
  have hTolerated : repaired.Tolerated := tolerated_repairGaps hKept
  have hRaised : ∀ p, p ∈ t.overdue ↔ (t.state p).floor < (repaired.state p).floor := by
    intro p
    rw [mem_overdue_iff t hKept, state_repairGaps]
    exact ((hSound.state p).floor_lt_repairGap_iff hKept).symm
  refine ⟨hSound, ⟨t.overdue.toFinset, ?_, ?_, ?_⟩, ?_, ?_, ?_⟩
  · intro p
    rw [List.mem_toFinset]
    exact hRaised p
  · rw [List.toFinset_card_of_nodup t.nodup_overdue, length_overdue]
    rfl
  · intro p hOther
    exact getElem?_repairGaps_of_not_mem hKept fun hm => hOther (List.mem_toFinset.mpr hm)
  · intro p
    show t.repairGaps.1.partitions[p]?.map _ = _
    rw [getElem?_repairGaps, Option.map_map]
    congr 1
    funext m
    exact Prod.ext (m.repairGap_source t.tolerance) (m.repairGap_latest t.tolerance)
  · intro p m hKnown
    exact hSame ▸ hTolerated p m hKnown
  · exact hTolerated.repairGaps_eq

/-- A first report that is older than the events has raised the floor of partition 3 while its gap
is still open; the gap of partition 4 is tolerated. -/
theorem repair_counts_raised_after_older_report :
    let ops : List Op := [.observe ⟨3, 7, 2⟩, .observe ⟨3, 7, 9⟩, .seedSequences [(3, 5)],
      .observe ⟨4, 7, 1⟩, .observe ⟨4, 7, 3⟩]
    let t := (empty 1).run ops
    (0 : Int) ≤ 1 ∧ t.partitions[(3 : PartitionId)]? = some ⟨7, 9, 5, 6⟩ ∧ t.repairGaps.2 = 1 ∧
      t.repairGaps.1.partitions[(3 : PartitionId)]? = some ⟨7, 9, 9, 0⟩ ∧
      t.repairGaps.1.repairGaps = (t.repairGaps.1, 0) := by
  intro ops t
  have hTolerance : (0 : Int) ≤ 1 := by decide
  have hRepair := repair_counts_raised hTolerance ops
  exact ⟨hTolerance, by decide, by decide, by decide, hRepair.2.2.2.2⟩

end Tracker

end NearCache
