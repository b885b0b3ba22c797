import Mathlib.Order.Lattice
import NearCache.Proofs.Tracker.Run

/-!
Staleness is permanent: a record whose stamp was found stale once is stale for good, as long as its
partition does not go back to a source that it has left.
-/

namespace NearCache

namespace Tracker

/-- The tracker after so many single changes of a run. -/
def moment (t : Tracker) (ops : List Op) (n : Nat) : Tracker :=
  t.run ((ops.flatMap Op.split).take n)

/-- The source that a partition tracks, once it is known. -/
def source? (t : Tracker) (p : PartitionId) : Option SourceId :=
  t.partitions[p]?.map PartitionState.source

/-- In this run the partition never adopts a source again that it tracked before and left: when its
source changes, it is to one that it has not tracked at any earlier moment. -/
def NeverReturns (t : Tracker) (ops : List Op) (p : PartitionId) : Prop :=
  ∀ n < (ops.flatMap Op.split).length,
    (moment t ops (n + 1)).source? p = (moment t ops n).source? p ∨
      ∀ i ≤ n, (moment t ops i).source? p ≠ (moment t ops (n + 1)).source? p

instance (t : Tracker) (ops : List Op) (p : PartitionId) : Decidable (NeverReturns t ops p) :=
  inferInstanceAs (Decidable (∀ n < (ops.flatMap Op.split).length, _ ∨ ∀ i ≤ n, _))

/-- The change after so many others asks for the stamp of the partition and is given this one. -/
def StampedAt (t : Tracker) (ops : List Op) (n : Nat) (p : PartitionId) (s : Position) : Prop :=
  (ops.flatMap Op.split)[n]? = some (.stamp p) ∧ ((moment t ops n).stamp p).2 = s

variable {t : Tracker} {ops : List Op} {p : PartitionId}

theorem sound_moment (h : Sound t) (ops : List Op) (n : Nat) : Sound (moment t ops n) :=
  h.run _

theorem moment_succ {n : Nat} {op : Op} (h : (ops.flatMap Op.split)[n]? = some op) :
    moment t ops (n + 1) = (moment t ops n).perform op := by
  unfold moment
  rw [List.take_add_one, h, run_append]
  rfl

theorem moment_succ_of_end {n : Nat} (h : (ops.flatMap Op.split).length ≤ n) :
    moment t ops (n + 1) = moment t ops n := by
  unfold moment
  rw [List.take_of_length_le h, List.take_of_length_le (Nat.le_succ_of_le h)]

/-- From one moment to the next a partition that is known stays known and changes at most once. -/
theorem known_moment_succ (hReset : .reset ∉ ops) {n : Nat} {m : PartitionState}
    (hKnown : (moment t ops n).partitions[p]? = some m) :
    ∃ m', (moment t ops (n + 1)).partitions[p]? = some m' ∧ m.Change m' := by
  rcases Nat.lt_or_ge n (ops.flatMap Op.split).length with hLt | hGe
  · have hOp := List.getElem?_eq_getElem hLt
    generalize (ops.flatMap Op.split)[n] = op at hOp
    obtain ⟨whole, hWhole, hPart⟩ := List.mem_flatMap.mp (List.mem_of_getElem? hOp)
    have hNoReset : op ≠ .reset := by
      rintro rfl
      cases whole <;> simp_all [Op.split]
    rw [moment_succ hOp]
    rcases changesAt_perform _ (split_of_mem_split hPart) hNoReset p with hSame | ⟨m', hNext, change⟩
    · exact ⟨m, hSame.trans hKnown, .stay⟩
    · rw [state_of_known _ _ hKnown] at change
      exact ⟨m', hNext, change⟩
  · rw [moment_succ_of_end hGe]
    exact ⟨m, hKnown, .stay⟩

theorem known_moment_of_le (hReset : .reset ∉ ops) {i j : Nat} (hLe : i ≤ j) {m : PartitionState}
    (hKnown : (moment t ops i).partitions[p]? = some m) :
    ∃ m', (moment t ops j).partitions[p]? = some m' := by
  induction j, hLe using Nat.le_induction with
  | base => exact ⟨m, hKnown⟩
  | succ j hLe ih =>
      obtain ⟨m', hKnown'⟩ := ih
      obtain ⟨m'', hNext, -⟩ := known_moment_succ hReset hKnown'
      exact ⟨m'', hNext⟩

/-- Between two moments with the same source the partition did not track another one. -/
theorem NeverReturns.source_between (hLeft : NeverReturns t ops p) (hReset : .reset ∉ ops)
    {i j k : Nat} (hFirstLe : i ≤ j) (hLastLe : j ≤ k) {m m' m'' : PartitionState}
    (hFirst : (moment t ops i).partitions[p]? = some m)
    (hMiddle : (moment t ops j).partitions[p]? = some m')
    (hLast : (moment t ops k).partitions[p]? = some m'') (hSource : m.source = m''.source) :
    m.source = m'.source := by
  induction k, hLastLe using Nat.le_induction generalizing m'' with
  | base =>
      rw [hMiddle] at hLast
      cases hLast
      exact hSource
  | succ k hLe ih =>
      obtain ⟨prior, hPrior⟩ := known_moment_of_le hReset hLe hMiddle
      refine ih hPrior ?_
      rcases Nat.lt_or_ge k (ops.flatMap Op.split).length with hLt | hGe
      · have hChange := hLeft k hLt
        simp only [source?, hPrior, hLast, Option.map_some, Option.some.injEq] at hChange
        rcases hChange with hSame | hOther
        · exact hSource.trans hSame
        · exact absurd (by simp [hFirst, hSource]) (hOther i (le_trans hFirstLe hLe))
      · rw [moment_succ_of_end hGe, hPrior] at hLast
        cases hLast
        exact hSource

/-- While a partition tracks one source, neither its latest number nor its floor goes down. -/
theorem mono_of_same_source (hSound : Sound t) (hReset : .reset ∉ ops)
    (hLeft : NeverReturns t ops p) {i j : Nat} (hLe : i ≤ j) {m m' : PartitionState}
    (hFirst : (moment t ops i).partitions[p]? = some m)
    (hLast : (moment t ops j).partitions[p]? = some m') (hSource : m.source = m'.source) :
    m.latest ≤ m'.latest ∧ m.floor ≤ m'.floor := by
  induction j, hLe using Nat.le_induction generalizing m' with
  | base =>
      rw [hFirst] at hLast
      cases hLast
      exact ⟨le_refl _, le_refl _⟩
  | succ j hLe ih =>
      obtain ⟨mid, hMiddle⟩ := known_moment_of_le hReset hLe hFirst
      have hStay := hLeft.source_between hReset hLe (Nat.le_succ j) hFirst hMiddle hLast hSource
      obtain ⟨next, hNext, change⟩ := known_moment_succ hReset hMiddle
      rw [hLast] at hNext
      cases hNext
      have hBefore := ih hMiddle hStay
      have hStep := change.mono (sound_moment hSound ops j p mid hMiddle) (hStay.symm.trans hSource)
      exact ⟨le_trans hBefore.1 hStep.1, le_trans hBefore.2 hStep.2⟩

/-- A stamp names the source and the latest number that the partition has from then on. -/
theorem StampedAt.known {n : Nat} {s : Position} (h : StampedAt t ops n p s) :
    ∃ m, (moment t ops (n + 1)).partitions[p]? = some m ∧ s = ⟨p, m.source, m.latest⟩ := by
  obtain ⟨hOp, rfl⟩ := h
  refine ⟨(moment t ops n).state p, ?_, rfl⟩
  rw [moment_succ hOp]
  exact (getElem?_touch _ p p).trans (if_pos rfl)

/-- A stamp that is stale stays stale. -/
theorem StampedAt.stale_mono (hSound : Sound t) (hReset : .reset ∉ ops)
    (hLeft : NeverReturns t ops p) {n j k : Nat} {s : Position} (hStamp : StampedAt t ops n p s)
    (hAfter : n < j) (hLe : j ≤ k) (hStale : (moment t ops j).isStale s = true) :
    (moment t ops k).isStale s = true := by
  obtain ⟨m, hFirst, rfl⟩ := hStamp.known
  obtain ⟨m', hMiddle⟩ := known_moment_of_le hReset hAfter hFirst
  obtain ⟨m'', hLast⟩ := known_moment_of_le hReset hLe hMiddle
  rw [isStale_of_known hMiddle] at hStale
  rw [isStale_of_known hLast]
  by_cases hSource : m.source = m''.source
  · have hStay := hLeft.source_between hReset hAfter hLe hFirst hMiddle hLast hSource
    have hFloor := (mono_of_same_source hSound hReset hLeft hLe hMiddle hLast
      (hStay.symm.trans hSource)).2
    rcases hStale with hOther | hBelow
    · exact absurd hStay hOther
    · exact Or.inr (lt_of_lt_of_le hBelow hFloor)
  · exact Or.inl hSource

/-- Staleness is permanent. In every run without a reset, and for every partition that does not go
back to a source, neither the latest number nor the floor goes down while the source stays; a stamp
does not lie above the latest number of its source; and a stamp that is stale stays stale. -/
theorem staleness_permanent (tolerance : Int) (ops : List Op) (p : PartitionId)
    (hReset : .reset ∉ ops) (hLeft : NeverReturns (.empty tolerance) ops p) :
    (∀ i j m m', i ≤ j → (moment (.empty tolerance) ops i).partitions[p]? = some m →
      (moment (.empty tolerance) ops j).partitions[p]? = some m' → m.source = m'.source →
      m.latest ≤ m'.latest ∧ m.floor ≤ m'.floor) ∧
    (∀ n j s m, StampedAt (.empty tolerance) ops n p s → n < j →
      (moment (.empty tolerance) ops j).partitions[p]? = some m → s.source = m.source →
      s.sequence ≤ m.latest) ∧
    (∀ n j k s, StampedAt (.empty tolerance) ops n p s → n < j → j ≤ k →
      (moment (.empty tolerance) ops j).isStale s = true →
      (moment (.empty tolerance) ops k).isStale s = true) := by
  have hSound := sound_empty tolerance
  refine ⟨?_, ?_, ?_⟩
  · intro i j m m' hLe hFirst hLast hSource
    exact mono_of_same_source hSound hReset hLeft hLe hFirst hLast hSource
  · intro n j s m hStamp hAfter hLast hSource
    obtain ⟨first, hFirst, rfl⟩ := hStamp.known
    exact (mono_of_same_source hSound hReset hLeft hAfter hFirst hLast hSource).1
  · intro n j k s hStamp hAfter hLe hStale
    exact hStamp.stale_mono hSound hReset hLeft hAfter hLe hStale

/-- A stamp of the first source, overtaken by a gap that was repaired, is stale under the next
source as well. -/
theorem staleness_permanent_after_rotation :
    let ops : List Op := [.seedSources [(3, 1), (4, 1)], .observe ⟨3, 1, 2⟩, .stamp 3,
      .observe ⟨3, 1, 9⟩, .repairGaps, .observe ⟨3, 2, 1⟩]
    Op.reset ∉ ops ∧ NeverReturns (.empty 1) ops 3 ∧
      (moment (.empty 1) ops 7).isStale ⟨3, 1, 2⟩ = true := by
  intro ops
  have hReset : Op.reset ∉ ops := by decide
  have hLeft : NeverReturns (.empty 1) ops 3 := by decide
  have hStamp : StampedAt (.empty 1) ops 3 3 ⟨3, 1, 2⟩ := ⟨by decide, by decide⟩
  exact ⟨hReset, hLeft, (staleness_permanent 1 ops 3 hReset hLeft).2.2 3 6 7 ⟨3, 1, 2⟩ hStamp
    (by decide) (by decide) (by decide)⟩

end Tracker

end NearCache
