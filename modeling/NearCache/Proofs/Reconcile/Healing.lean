import NearCache.Proofs.Reconcile.Report
import NearCache.Proofs.Store.Effects

/-!
Anti-entropy heals lost events. A report past more numbers than are tolerated makes everything
stamped before it unreadable at the next repair, whatever events arrive in between; a report past
fewer makes nothing stale.
-/

namespace NearCache

/-- Each number lies past at most so many others above the highest one before it. -/
def SkipsAtMost (n : Int) : Sequence → List Sequence → Prop
  | _, [] => True
  | top, x :: rest => x ≤ top + n + 1 ∧ SkipsAtMost n (max top x) rest

/-- The positions of some numbers of one source in a partition. -/
def positionsOf (p : PartitionId) (source : SourceId) (numbers : List Sequence) : List Position :=
  numbers.map fun x => ⟨p, source, x⟩

namespace PartitionState

theorem observe_self (m : PartitionState) (sequence : Sequence) :
    m.observe m.source sequence = m.advance sequence false :=
  if_pos rfl

theorem advance_missed_le {m m' : PartitionState} {next : Sequence} {reported : Bool}
    (h : m.advance next reported = .ok m') : m.missed ≤ m'.missed := by
  unfold advance at h
  split_ifs at h
  · cases h
    exact le_refl _
  · cases h
    exact le_max_left _ _

/-- More is missed than tolerated after a number that skips more than is tolerated. -/
theorem lt_missed_of_skipped {m m' : PartitionState} {next : Sequence} {reported : Bool}
    {tolerance : Int} (hNewer : m.latest < next)
    (hSkipped : tolerance < skipped m.latest next reported)
    (h : m.advance next reported = .ok m') : tolerance < m'.missed := by
  unfold advance at h
  split_ifs at h with hOld
  · exact absurd hNewer (not_lt_of_ge hOld)
  · cases h
    exact lt_of_lt_of_le hSkipped (le_max_right _ _)

/-- No more is missed than tolerated after a number that skips no more than is tolerated. -/
theorem missed_le_of_skipped {m m' : PartitionState} {next : Sequence} {reported : Bool}
    {tolerance : Int} (hMissed : m.missed ≤ tolerance)
    (hSkipped : skipped m.latest next reported ≤ tolerance)
    (h : m.advance next reported = .ok m') : m'.missed ≤ tolerance := by
  unfold advance at h
  split_ifs at h
  · cases h
    exact hMissed
  · cases h
    exact max_le hMissed hSkipped

end PartitionState

namespace Tracker

variable {t t' : Tracker} {p : PartitionId} {m : PartitionState}

theorem tolerance_setState (t : Tracker) (p : PartitionId) (m : PartitionState) :
    (t.setState p m).tolerance = t.tolerance := rfl

theorem tolerance_repairSources (t : Tracker) (sources : List (PartitionId × SourceId)) :
    (t.repairSources sources).tolerance = t.tolerance := by
  induction sources generalizing t with
  | nil => rfl
  | cons first rest ih =>
      rw [repairSources_cons, ih, tolerance_setState]

theorem tolerance_repairSequences {sequences : List (PartitionId × Sequence)}
    (h : t.repairSequences sequences = (t', .ok ())) : t'.tolerance = t.tolerance := by
  induction sequences generalizing t with
  | nil =>
      cases h
      rfl
  | cons first rest ih =>
      obtain ⟨m, -, hRest⟩ := ok_of_repairSequences_cons h
      rw [ih hRest, tolerance_setState]

/-- Events of the source that a partition tracks move it forward. They neither move its floor nor
make it forget what it missed, and add nothing above the tolerance if they skip no more than that. -/
theorem known_observeAll (hKnown : t.partitions[p]? = some m) (hLatest : 0 ≤ m.latest)
    {numbers : List Sequence} (hRange : ∀ x ∈ numbers, x ≤ maxSequence) :
    ∃ t' m', t.observeAll (positionsOf p m.source numbers) = (t', .ok ()) ∧
      t'.partitions[p]? = some m' ∧ t'.tolerance = t.tolerance ∧ m'.source = m.source ∧
      m'.floor = m.floor ∧ m.latest ≤ m'.latest ∧ m.missed ≤ m'.missed ∧
      ∀ tolerance, m.missed ≤ tolerance → SkipsAtMost tolerance m.latest numbers →
        m'.missed ≤ tolerance := by
  induction numbers generalizing t m with
  | nil => exact ⟨t, m, rfl, hKnown, rfl, rfl, rfl, le_refl _, le_refl _, fun _ h _ => h⟩
  | cons x rest ih =>
      rw [List.forall_mem_cons] at hRange
      obtain ⟨m₁, hFirst⟩ := PartitionState.advance_ok false hLatest hRange.1
      have hNow := PartitionState.advance_latest hFirst
      have hSource := PartitionState.advance_source hFirst
      have hMissed := PartitionState.advance_missed_le hFirst
      have hObserved : t.observe ⟨p, m.source, x⟩ = .ok (t.setState p m₁) := by
        rw [observe, state_of_known _ _ hKnown, PartitionState.observe_self, hFirst]
        rfl
      obtain ⟨t', m', hAll, hKnown', hTolerance, hSource', hFloor, hMore, hMissed', hFew⟩ :=
        ih (t := t.setState p m₁) (m := m₁) (by rw [getElem?_setState, if_pos rfl]) (by lia)
          hRange.2
      refine ⟨t', m', ?_, hKnown', hTolerance, hSource'.trans hSource,
        hFloor.trans (PartitionState.advance_floor hFirst), by lia, le_trans hMissed hMissed', ?_⟩
      · rw [hSource] at hAll
        rw [positionsOf, List.map_cons, observeAll, hObserved]
        exact hAll
      · intro tolerance hBefore hSkips
        refine hFew tolerance (PartitionState.missed_le_of_skipped hBefore ?_ hFirst) ?_
        · have hStep := hSkips.1
          simp only [PartitionState.skipped, Bool.false_eq_true, if_false]
          lia
        · rw [hNow]
          exact hSkips.2

end Tracker

namespace Cache

theorem partitions_repairGaps (c : Cache) (p : PartitionId) :
    c.repairGaps.1.tracker.partitions[p]? =
      c.tracker.partitions[p]?.map (·.repairGap c.tracker.tolerance) :=
  Tracker.getElem?_repairGaps c.tracker p

/-- An entry whose stamp is stale cannot be read, and a read removes it. -/
theorem get_of_stale {c : Cache} {key : Data} {e : Entry Value} (now : Instant)
    (hEntry : c.store.slots.state? key = some (.ready e)) (hStale : c.tracker.isStale e.stamp = true) :
    (c.get key now).2 = none ∧ (c.get key now).1.store.slots.state? key = none := by
  have hStale' : c.store.tracker.isStale e.stamp = true := hStale
  have hFound := (c.store.slots.entry?_eq_some_iff key).mpr hEntry
  cases hExpired : e.isExpired now c.store.limits.timeToLive c.store.limits.maxIdle with
  | true => simp [get, Store.get, Store.reading, hFound, hExpired, Slots.state?_remove, withStore]
  | false =>
      simp [get, Store.get, Store.reading, hFound, hExpired, hStale', Slots.state?_remove, withStore]

end Cache

/-- Anti-entropy heals lost events, and only those. A report is applied in full wherever no number
tracked is negative. Once one was applied that names no other source for a partition and tells one
number of it, the events of that source that follow are applied in full as well. If the number is
further on than is tolerated, no entry stamped before the report can be read after the next repair,
and a read removes it. If it is not, and neither were the events missed before nor those skipped
after, the floor stays where it was and no stamp turns stale. -/
theorem lost_events_heal (caches : List Cache) (report : MemberReport)
    (hNames : (caches.map Cache.name).Nodup) (hReport : report.InRange) :
    ((∀ c ∈ caches, c.tracker.Nonnegative) → (applyReport caches report).2 = .ok ()) ∧
    ∀ (caches' : List Cache) (i : Nat) (c : Cache) (p : PartitionId) (m : PartitionState)
      (q : Sequence) (numbers : List Sequence),
      applyReport caches report = (caches', .ok ()) → caches[i]? = some c →
      0 ≤ c.tracker.tolerance → c.tracker.partitions[p]? = some m → 0 ≤ m.latest →
      (∀ source, (p, source) ∈ report.sources → source = m.source) →
      (report.named c.name).filter (·.1 = p) = [(p, q)] →
      (∀ x ∈ numbers, x ≤ maxSequence) →
      ∃ reported t, caches'[i]? = some reported ∧
        reported.tracker.observeAll (positionsOf p m.source numbers) = (t, .ok ()) ∧
        (c.tracker.tolerance < q - m.latest →
          ∀ key e now, c.store.slots.state? key = some (.ready e) → e.stamp.partition = p →
            e.stamp.sequence ≤ m.latest →
            ((reported.withTracker t).repairGaps.1.get key now).2 = none ∧
            ((reported.withTracker t).repairGaps.1.get key now).1.store.slots.state? key = none) ∧
        (q - m.latest ≤ c.tracker.tolerance → m.missed ≤ c.tracker.tolerance →
          SkipsAtMost c.tracker.tolerance (max m.latest q) numbers →
          ((reported.withTracker t).repairGaps.1.tracker.state p).floor = m.floor ∧
          ∀ s : Position, s.partition = p →
            (reported.withTracker t).repairGaps.1.tracker.isStale s = c.tracker.isStale s) := by
  refine ⟨fun hNonneg => ?_, ?_⟩
  · obtain ⟨caches', hOk, -⟩ := applyReport_nonnegative hNonneg hReport
    rw [hOk]
  · intro caches' i c p m q numbers hApplied hCache hTolerance hKnown hLatest hSource hOnce hNumbers
    obtain ⟨-, hEach⟩ := applyReport_ok hNames hApplied
    obtain ⟨t₀, hReported, hSequences⟩ := hEach i c hCache
    have hSame := Tracker.known_repairSources_of_same hKnown hSource
    obtain ⟨m₁, hAdvance, hKnown₁⟩ := Tracker.known_repairSequences_of_once hSame hOnce hSequences
    have hLatest₁ := PartitionState.advance_latest hAdvance
    have hSource₁ := PartitionState.advance_source hAdvance
    obtain ⟨t, m₂, hAll, hKnown₂, hTolerance₂, hSource₂, hFloor₂, hMore, hMissed₂, hFew⟩ :=
      Tracker.known_observeAll hKnown₁ (by lia) hNumbers
    rw [hSource₁] at hAll
    have hTracked : t.tolerance = c.tracker.tolerance := by
      rw [hTolerance₂, Tracker.tolerance_repairSequences hSequences,
        Tracker.tolerance_repairSources]
    have hHealed : ((c.withTracker t₀).withTracker t).repairGaps.1.tracker.partitions[p]? =
        some (m₂.repairGap c.tracker.tolerance) := by
      rw [Cache.partitions_repairGaps, Cache.tracker_withTracker, hKnown₂, hTracked]
      rfl
    refine ⟨c.withTracker t₀, t, hReported, hAll, ?_, ?_⟩
    · intro hFar key e now hEntry hPartition hBefore
      refine Cache.get_of_stale now hEntry ?_
      have hMany : c.tracker.tolerance < m₂.missed := by
        refine lt_of_lt_of_le (PartitionState.lt_missed_of_skipped ?_ ?_ hAdvance) hMissed₂
        · lia
        · simpa only [PartitionState.skipped, if_true] using hFar
      rw [Tracker.isStale_of_known (hPartition ▸ hHealed), PartitionState.repairGap_of_lt hMany]
      refine Or.inr ?_
      dsimp only
      lia
    · intro hNear hMissed hSkips
      have hFewNow : m₂.missed ≤ c.tracker.tolerance := by
        refine hFew _ (PartitionState.missed_le_of_skipped hMissed ?_ hAdvance) (hLatest₁ ▸ hSkips)
        simpa only [PartitionState.skipped, if_true] using hNear
      have hFloor : m₂.floor = m.floor :=
        hFloor₂.trans (PartitionState.advance_floor hAdvance)
      rw [PartitionState.repairGap_of_le hFewNow] at hHealed
      refine ⟨by rw [Tracker.state_of_known _ _ hHealed, hFloor], fun s hPartition => ?_⟩
      subst hPartition
      rw [Bool.eq_iff_iff, Tracker.isStale_of_known hHealed, Tracker.isStale_of_known hKnown,
        hSource₂, hSource₁, hFloor]

/-- Three lost events are more than the one that is tolerated. Two late ones that follow do not hide
them, and the entry stamped before them cannot be read any more. -/
theorem lost_events_heal_before_read :
    let key : Data := ⟨[1]⟩
    let c := (((Cache.create "orders" (.ofName "orders") .default).withTracker
      ((Tracker.empty 1).setState 3 ⟨7, 4, 0, 0⟩)).put key ⟨[9]⟩ 3 0 0).1
    let report : MemberReport :=
      ⟨[(3, 7), (5, 8)], [("users", [(3, 90)]), ("orders", [(5, 1), (3, 7)])]⟩
    ∃ caches' reported t, applyReport [c] report = (caches', .ok ()) ∧
      caches'[0]? = some reported ∧
      reported.tracker.observeAll (positionsOf 3 7 [9, 8]) = (t, .ok ()) ∧
      (c.get key 0).2 = some (.binary ⟨[9]⟩) ∧
      ((reported.withTracker t).repairGaps.1.get key 0).2 = none := by
  intro key c report
  have hNames : ([c].map Cache.name).Nodup := by decide
  have hReport : report.InRange := by
    unfold MemberReport.InRange
    decide
  have hApplied : applyReport [c] report = ((applyReport [c] report).1, .ok ()) :=
    Prod.ext rfl (by decide)
  have hReady : c.store.slots.state? key =
      some (.ready (.create key (.binary ⟨[9]⟩) ⟨3, 7, 4⟩ 0)) := by decide
  have hSource : ∀ source, (3, source) ∈ report.sources → source = 7 := by simp [report]
  obtain ⟨reported, t, hCache, hObserved, hHeal, -⟩ :=
    (lost_events_heal [c] report hNames hReport).2 _ 0 c 3 ⟨7, 4, 0, 0⟩ 7 [9, 8] hApplied rfl
      (by decide) (by decide) (by decide) hSource (by decide) (by decide)
  exact ⟨_, reported, t, hApplied, hCache, hObserved, by decide,
    (hHeal (by decide) key _ 0 hReady (by decide) (by decide)).1⟩

end NearCache
