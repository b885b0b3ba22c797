import Mathlib.Data.Int.Order.Basic
import Mathlib.Tactic.SplitIfs
import NearCache.Partition

/-!
What an operation can do to the knowledge of one partition. Every operation is one of a few changes;
all that holds of a partition at all times is shown of these changes once.
-/

namespace NearCache

namespace PartitionState

/-- The changes that the operations make. -/
inductive Change (m : PartitionState) : PartitionState → Prop where
  | stay : Change m m
  | rotate (source : SourceId) (sequence : Sequence) (hOther : m.source ≠ source) :
      Change m (rotate source sequence)
  | advance (next : Sequence) (reported : Bool) (hNewer : m.latest < next) :
      Change m { m with latest := next, missed := max m.missed (skipped m.latest next reported) }
  | repair : Change m { m with floor := m.latest, missed := 0 }
  | seedNewer (sequence : Sequence) (hNewer : m.latest ≤ sequence) :
      Change m { m with latest := sequence, floor := sequence, missed := 0 }
  | seedOlder (sequence : Sequence) (hOlder : sequence < m.latest) :
      Change m { m with floor := max m.floor sequence }

theorem advance_change {m m' : PartitionState} {next : Sequence} {reported : Bool}
    (h : m.advance next reported = .ok m') : Change m m' := by
  unfold PartitionState.advance at h
  split_ifs at h with hOld
  · cases h
    exact .stay
  · cases h
    exact .advance next reported (by lia)

theorem observe_change {m m' : PartitionState} {source : SourceId} {sequence : Sequence}
    (h : m.observe source sequence = .ok m') : Change m m' := by
  unfold observe at h
  split_ifs at h with hSame
  · exact advance_change h
  · cases h
    exact .rotate source sequence hSame

theorem adoptSource_change (m : PartitionState) (source : SourceId) :
    Change m (m.adoptSource source) := by
  unfold adoptSource
  split_ifs with hSame
  · exact .stay
  · exact .rotate source 0 hSame

theorem seedSequence_change (m : PartitionState) (sequence : Sequence) :
    Change m (m.seedSequence sequence) := by
  unfold seedSequence
  split_ifs with hNewer
  · exact .seedNewer sequence hNewer
  · exact .seedOlder sequence (by lia)

theorem repairGap_change (m : PartitionState) (tolerance : Int) :
    Change m (m.repairGap tolerance) := by
  unfold repairGap
  split_ifs
  · exact .repair
  · exact .stay

theorem repairGap_of_lt {m : PartitionState} {tolerance : Int} (h : tolerance < m.missed) :
    m.repairGap tolerance = { m with floor := m.latest, missed := 0 } :=
  if_pos (decide_eq_true h)

theorem repairGap_of_le {m : PartitionState} {tolerance : Int} (h : m.missed ≤ tolerance) :
    m.repairGap tolerance = m :=
  if_neg fun hExceeds => absurd (of_decide_eq_true hExceeds) (not_lt_of_ge h)

theorem repairGap_source (m : PartitionState) (tolerance : Int) :
    (m.repairGap tolerance).source = m.source := by
  unfold repairGap
  split_ifs <;> rfl

theorem repairGap_latest (m : PartitionState) (tolerance : Int) :
    (m.repairGap tolerance).latest = m.latest := by
  unfold repairGap
  split_ifs <;> rfl

/-- The floor does not pass the latest number, and a run that is still counted as missed ended
above the floor. -/
structure Sound (m : PartitionState) : Prop where
  floor_le : m.floor ≤ m.latest
  missed_nonneg : 0 ≤ m.missed
  floor_lt : 0 < m.missed → m.floor < m.latest

/-- Right after the floor was raised to the latest number, nothing is counted as missed. -/
theorem sound_of_floor_eq {m : PartitionState} (hFloor : m.floor = m.latest)
    (hMissed : m.missed = 0) : Sound m :=
  ⟨le_of_eq hFloor, le_of_eq hMissed.symm, fun h => absurd hMissed (ne_of_gt h)⟩

theorem sound_initial : Sound initial := sound_of_floor_eq rfl rfl

/-- A skipped run is shorter than the distance that it is part of, and not negative. -/
theorem skipped_bounds {latest next : Sequence} (reported : Bool) (hNewer : latest < next) :
    0 ≤ skipped latest next reported ∧ skipped latest next reported ≤ next - latest := by
  unfold skipped
  split_ifs <;> lia

theorem Change.sound {m m' : PartitionState} (change : Change m m') (h : Sound m) : Sound m' := by
  obtain ⟨hFloor, hMissed, hRun⟩ := h
  cases change with
  | stay => exact ⟨hFloor, hMissed, hRun⟩
  | rotate source sequence hOther => exact sound_of_floor_eq rfl rfl
  | advance next reported hNewer =>
      have hSkipped := skipped_bounds reported hNewer
      exact ⟨by lia, by lia, fun _ => by lia⟩
  | repair => exact sound_of_floor_eq rfl rfl
  | seedNewer sequence hNewer => exact sound_of_floor_eq rfl rfl
  | seedOlder sequence hOlder =>
      refine ⟨by lia, hMissed, fun h => ?_⟩
      have := hRun h
      lia

/-- As long as the source stays, neither the latest number nor the floor goes down. -/
theorem Change.mono {m m' : PartitionState} (change : Change m m') (h : Sound m)
    (hSource : m.source = m'.source) : m.latest ≤ m'.latest ∧ m.floor ≤ m'.floor := by
  have hFloor := h.floor_le
  cases change with
  | stay => exact ⟨le_refl _, le_refl _⟩
  | rotate source sequence hOther => exact absurd hSource hOther
  | advance next reported hNewer => exact ⟨le_of_lt hNewer, le_refl _⟩
  | repair => exact ⟨le_refl _, hFloor⟩
  | seedNewer sequence hNewer => exact ⟨hNewer, le_trans hFloor hNewer⟩
  | seedOlder sequence hOlder => exact ⟨le_refl _, le_max_left _ _⟩

end PartitionState

end NearCache
