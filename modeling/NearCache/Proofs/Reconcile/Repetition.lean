import NearCache.Proofs.Reconcile.Knowledge
import NearCache.Proofs.Reconcile.Overtaken

/-!
A report that is applied twice. A member may contradict itself in one report: a partition may be listed
under several sources, and with several numbers. If all sources listed are one, the second time finds it
adopted; if they are not, the partition starts over both times, and what it was before does not matter.
Each cache takes its part of a report as if there were no other.
-/

namespace NearCache

namespace PartitionState

variable {m : PartitionState} {sources : List SourceId} {sequence : Sequence}
  {sequences : List Sequence}

/-- The partition after a member has reported a number, where no distance is too large. -/
def raise (m : PartitionState) (sequence : Sequence) : PartitionState :=
  if sequence ≤ m.latest then m
  else { m with latest := sequence, missed := max m.missed (sequence - m.latest) }

theorem advance_eq_raise (hLatest : 0 ≤ m.latest) (hRange : sequence ≤ maxSequence) :
    m.advance sequence true = .ok (m.raise sequence) := by
  by_cases hOld : sequence ≤ m.latest
  · rw [advance_of_le hOld, raise, if_pos hOld]
  · rw [advance_of_lt (Int.not_le.mp hOld) (by lia), raise, if_neg hOld]
    rfl

theorem latest_raise (m : PartitionState) (sequence : Sequence) :
    (m.raise sequence).latest = max m.latest sequence := by
  unfold raise
  split_ifs with hOld
  · exact (max_eq_left hOld).symm
  · exact (max_eq_right (Int.le_of_lt (Int.not_le.mp hOld))).symm

theorem source_raise (m : PartitionState) (sequence : Sequence) :
    (m.raise sequence).source = m.source := by
  unfold raise
  split_ifs <;> rfl

theorem latest_le_foldl_raise (m : PartitionState) (sequences : List Sequence) :
    m.latest ≤ (sequences.foldl raise m).latest := by
  induction sequences generalizing m with
  | nil => exact le_refl _
  | cons first rest ih =>
      calc
        m.latest ≤ (m.raise first).latest := m.latest_raise first ▸ le_max_left _ _
        _ ≤ (rest.foldl raise (m.raise first)).latest := ih (m.raise first)

theorem le_latest_foldl_raise (h : sequence ∈ sequences) (m : PartitionState) :
    sequence ≤ (sequences.foldl raise m).latest := by
  induction sequences generalizing m with
  | nil => exact absurd h List.not_mem_nil
  | cons first rest ih =>
      rcases List.mem_cons.mp h with rfl | hRest
      · calc
          sequence ≤ (m.raise sequence).latest := m.latest_raise sequence ▸ le_max_right _ _
          _ ≤ (rest.foldl raise (m.raise sequence)).latest := latest_le_foldl_raise _ rest
      · exact ih hRest (m.raise first)

theorem source_foldl_raise (m : PartitionState) (sequences : List Sequence) :
    (sequences.foldl raise m).source = m.source := by
  induction sequences generalizing m with
  | nil => rfl
  | cons first rest ih => exact (ih (m.raise first)).trans (m.source_raise first)

theorem foldl_raise_of_le (h : ∀ sequence ∈ sequences, sequence ≤ m.latest) :
    sequences.foldl raise m = m := by
  induction sequences with
  | nil => rfl
  | cons first rest ih =>
      rw [List.forall_mem_cons] at h
      rw [List.foldl_cons, raise, if_pos h.1]
      exact ih h.2

/-- Numbers that have been reported tell nothing new. -/
theorem foldl_raise_again (m : PartitionState) (sequences : List Sequence) :
    sequences.foldl raise (sequences.foldl raise m) = sequences.foldl raise m :=
  foldl_raise_of_le fun _ h => le_latest_foldl_raise h m

/-- What several sources make of a partition: nothing if each is the one that is tracked, and a start
from zero under the last of them if not. -/
theorem foldl_adoptSource_eq (m : PartitionState) (sources : List SourceId) :
    sources.foldl adoptSource m =
      if ∀ s ∈ sources, s = m.source then m else rotate (sources.getLastD m.source) 0 := by
  induction sources using List.reverseRecOn with
  | nil => simp
  | append_singleton before last ih =>
      rw [List.foldl_append, List.foldl_cons, List.foldl_nil, ih, List.getLastD_concat]
      simp only [List.forall_mem_append, List.forall_mem_singleton]
      by_cases hBefore : ∀ s ∈ before, s = m.source
      · rw [if_pos hBefore]
        by_cases hLast : last = m.source
        · rw [if_pos ⟨hBefore, hLast⟩, hLast, adoptSource_self]
        · rw [if_neg fun h => hLast h.2, adoptSource_of_ne (Ne.symm hLast)]
      · rw [if_neg hBefore, if_neg fun h => hBefore h.1]
        by_cases hLast : before.getLastD m.source = last
        · rw [hLast]
          exact adoptSource_self (rotate last 0)
        · exact adoptSource_of_ne hLast

/-- From sources of which one is new, a partition takes the same whatever it tracks. -/
theorem foldl_adoptSource_of_other {m' : PartitionState} (h : ¬∀ s ∈ sources, s = m.source)
    (h' : ¬∀ s ∈ sources, s = m'.source) :
    sources.foldl adoptSource m = sources.foldl adoptSource m' := by
  rw [foldl_adoptSource_eq, if_neg h, foldl_adoptSource_eq, if_neg h']
  cases sources with
  | nil => exact absurd (List.forall_mem_nil _) h
  | cons first rest => rw [List.getLastD_cons, List.getLastD_cons]

/-- The partition after a report that lists it under these sources and with these numbers. -/
def told (m : PartitionState) (sources : List SourceId) (sequences : List Sequence) :
    PartitionState :=
  sequences.foldl raise (sources.foldl adoptSource m)

/-- Told once more, a partition stays as it is. -/
theorem told_told (m : PartitionState) (sources : List SourceId) (sequences : List Sequence) :
    (m.told sources sequences).told sources sequences = m.told sources sequences := by
  have hSource : (m.told sources sequences).source = (sources.foldl adoptSource m).source :=
    source_foldl_raise _ sequences
  by_cases hAgree : ∀ s ∈ sources, s = (sources.foldl adoptSource m).source
  · rw [told, foldl_adoptSource_of_same (hSource ▸ hAgree)]
    exact foldl_raise_again _ sequences
  · -- Had all sources been the one tracked at first, they would be the one tracked now.
    have hStart : ¬∀ s ∈ sources, s = m.source := by
      intro hSame
      rw [foldl_adoptSource_of_same hSame] at hAgree
      exact hAgree hSame
    rw [told, foldl_adoptSource_of_other (hSource ▸ hAgree) hStart]
    rfl

end PartitionState

theorem MemberReport.InRange.named {report : MemberReport} (h : report.InRange) (name : String) :
    ∀ p ∈ report.named name, p.2 ≤ maxSequence := by
  intro p hm
  obtain ⟨named, hNamed, hp⟩ := List.mem_flatMap.mp hm
  exact h named (List.mem_of_mem_filter hNamed) p hp

namespace Tracker

variable {t : Tracker} {name : String} {report : MemberReport}

theorem state_updateAll {α : Type} (update : PartitionState → α → PartitionState) (t : Tracker)
    (told : List (PartitionId × α)) (p : PartitionId) :
    (t.updateAll update told).state p = (toldOf p told).foldl update (t.state p) := by
  by_cases hTold : toldOf p told = []
  · rw [state, getElem?_updateAll, if_pos hTold, hTold]
    rfl
  · exact state_of_known _ _ (getElem?_updateAll_of_told update t told p hTold)

/-- The tracker of a cache of this name after a report. -/
def told (t : Tracker) (name : String) (report : MemberReport) : Tracker :=
  (t.updateAll .adoptSource report.sources).updateAll .raise (report.named name)

theorem tolerance_told (t : Tracker) (name : String) (report : MemberReport) :
    (t.told name report).tolerance = t.tolerance := by
  rw [told, tolerance_updateAll, tolerance_updateAll]

theorem state_told (t : Tracker) (name : String) (report : MemberReport) (p : PartitionId) :
    (t.told name report).state p =
      (t.state p).told (toldOf p report.sources) (toldOf p (report.named name)) := by
  rw [told, state_updateAll, state_updateAll]
  rfl

/-- A partition that a report does not list is not made known by it, and one that it lists is. -/
theorem getElem?_told (t : Tracker) (name : String) (report : MemberReport) (p : PartitionId) :
    (t.told name report).partitions[p]? =
      if toldOf p report.sources = [] ∧ toldOf p (report.named name) = [] then t.partitions[p]?
      else some ((t.told name report).state p) := by
  rw [state_told, told, getElem?_updateAll, getElem?_updateAll, state_updateAll]
  by_cases hNumbers : toldOf p (report.named name) = []
  · by_cases hSources : toldOf p report.sources = []
    · rw [if_pos hNumbers, if_pos hSources, if_pos ⟨hSources, hNumbers⟩]
    · rw [if_pos hNumbers, if_neg hSources, if_neg fun h => hSources h.1, hNumbers]
      rfl
  · rw [if_neg hNumbers, if_neg fun h => hNumbers h.2]
    rfl

theorem told_told (t : Tracker) (name : String) (report : MemberReport) :
    (t.told name report).told name report = t.told name report := by
  refine eq_of_partitions (tolerance_told _ name report) fun p => ?_
  rw [getElem?_told (t.told name report), state_told, state_told, PartitionState.told_told,
    ← state_told]
  split_ifs with hUnlisted
  · rfl
  · rw [getElem?_told t, if_neg hUnlisted]

/-- The numbers under other names are not looked at. -/
theorem told_under (t : Tracker) (name : String) (report : MemberReport) :
    t.told name (report.under name) = t.told name report := by
  rw [told, told, MemberReport.named_under]
  rfl

theorem Nonnegative.repairSequences_eq (h : t.Nonnegative)
    {sequences : List (PartitionId × Sequence)} (hRange : ∀ p ∈ sequences, p.2 ≤ maxSequence) :
    t.repairSequences sequences = (t.updateAll .raise sequences, .ok ()) := by
  induction sequences generalizing t with
  | nil => rfl
  | cons first rest ih =>
      rw [List.forall_mem_cons] at hRange
      have hLatest := h.state first.1
      have hRaised : 0 ≤ ((t.state first.1).raise first.2).latest := by
        rw [PartitionState.latest_raise]
        exact le_trans hLatest (le_max_left _ _)
      rw [repairSequences_cons_of_ok (PartitionState.advance_eq_raise hLatest hRange.1)]
      exact ih (h.setState first.1 hRaised) hRange.2

/-- A partition of which no number is told under the name of the cache, and which is not listed under
another source than it tracks, is as it was. If it is listed under another, it starts from zero. -/
theorem state_told_of_unnumbered {p : PartitionId} (h : ∀ q, (p, q) ∉ report.named name) :
    (¬report.NamesOther p (t.state p).source → (t.told name report).state p = t.state p) ∧
      (report.NamesOther p (t.state p).source →
        ∃ source, (p, source) ∈ report.sources ∧
          (t.told name report).state p = .rotate source 0) := by
  have hState : (t.told name report).state p =
      (toldOf p report.sources).foldl .adoptSource (t.state p) := by
    rw [state_told, toldOf_eq_nil h]
    rfl
  refine ⟨fun hSame => ?_, fun hOther => ?_⟩
  · rw [hState]
    apply PartitionState.foldl_adoptSource_of_same
    intro source hm
    by_contra hNe
    exact hSame ⟨source, mem_toldOf.mp hm, hNe⟩
  · obtain ⟨other, hListed, hNe⟩ := hOther
    have hMem : other ∈ toldOf p report.sources := mem_toldOf.mpr hListed
    have hLast := List.getLast_mem (List.ne_nil_of_mem hMem)
    refine ⟨_, mem_toldOf.mp hLast, ?_⟩
    rw [hState, PartitionState.foldl_adoptSource_eq, if_neg fun hAll => hNe (hAll other hMem),
      List.getLastD_eq_getLast?, List.getLast?_eq_some_getLast]
    rfl

end Tracker

/-- The cache after a report. -/
def Cache.told (c : Cache) (report : MemberReport) : Cache :=
  c.withTracker (c.tracker.told c.name report)

theorem Cache.told_told (c : Cache) (report : MemberReport) :
    (c.told report).told report = c.told report :=
  congrArg c.withTracker (c.tracker.told_told c.name report)

theorem Cache.told_under (c : Cache) (report : MemberReport) :
    c.told (report.under c.name) = c.told report :=
  congrArg c.withTracker (c.tracker.told_under c.name report)

section Caches

variable {caches : List Cache} {report : MemberReport}

/-- Among caches of different names, each is told the report for itself. -/
theorem applyReport_eq_map (hNames : (caches.map Cache.name).Nodup)
    (hNonneg : ∀ c ∈ caches, c.tracker.Nonnegative) (hRange : report.InRange) :
    applyReport caches report = (caches.map (·.told report), .ok ()) := by
  obtain ⟨caches', hApplied, -⟩ := applyReport_nonnegative hNonneg hRange
  obtain ⟨hSame, hEach⟩ := applyReport_ok hNames hApplied
  have hLength : caches'.length = caches.length := by
    simpa only [List.length_map] using congrArg List.length hSame
  have hTold : caches' = caches.map (·.told report) := by
    refine List.ext_getElem? fun i => ?_
    rw [List.getElem?_map]
    cases hCache : caches[i]? with
    | none =>
        rw [List.getElem?_eq_none_iff] at hCache
        exact List.getElem?_eq_none (hLength ▸ hCache)
    | some c =>
        obtain ⟨t, hCache', hTracker⟩ := hEach i c hCache
        have hSources : (c.tracker.repairSources report.sources).Nonnegative :=
          (hNonneg c (List.mem_of_getElem? hCache)).repairSources
        rw [hSources.repairSequences_eq (hRange.named c.name)] at hTracker
        obtain rfl := (Prod.mk.inj hTracker).1
        exact hCache'
  rw [hApplied, hTold]

theorem applyReport_alone {c : Cache} (h : c.tracker.Nonnegative) (hRange : report.InRange) :
    applyReport [c] report = ([c.told report], .ok ()) := by
  have hNames : ([c].map Cache.name).Nodup := List.nodup_singleton c.name
  have hNonneg : ∀ x ∈ [c], x.tracker.Nonnegative := fun x hx => List.mem_singleton.mp hx ▸ h
  exact applyReport_eq_map hNames hNonneg hRange

theorem nonnegative_told {c : Cache} (h : c.tracker.Nonnegative) (hRange : report.InRange) :
    (c.told report).tracker.Nonnegative := by
  have hNonneg : ∀ x ∈ [c], x.tracker.Nonnegative := fun x hx => List.mem_singleton.mp hx ▸ h
  obtain ⟨caches', hApplied, hNonneg'⟩ := applyReport_nonnegative hNonneg hRange
  obtain rfl := congrArg Prod.fst ((applyReport_alone h hRange).symm.trans hApplied)
  exact hNonneg' _ (List.mem_singleton_self _)

end Caches

/-- A report of one member, applied to caches of different names of which none tracks a negative number.
It is applied in full, each cache being told its part as it would be alone; applied once more, it changes
nothing, however much it contradicts itself. To a cache only the numbers under its own name matter, and
only its tracker changes. A partition without a number under that name keeps what is known of it, or
starts from zero under one of the sources listed, if one of them is not the one that it tracks. -/
theorem applyReport_again (caches : List Cache) (report : MemberReport)
    (hNames : (caches.map Cache.name).Nodup) (hNonneg : ∀ c ∈ caches, c.tracker.Nonnegative)
    (hRange : report.InRange) :
    let once := caches.map (·.told report)
    applyReport caches report = (once, .ok ()) ∧
      applyReport once report = (once, .ok ()) ∧
      ∀ c ∈ caches,
        applyReport [c] report = ([c.told report], .ok ()) ∧
        applyReport [c] (report.under c.name) = ([c.told report], .ok ()) ∧
        c.told report = c.withTracker (c.told report).tracker ∧
        ∀ p, (∀ sequence, (p, sequence) ∉ report.named c.name) →
          (¬report.NamesOther p (c.tracker.state p).source →
            (c.told report).tracker.state p = c.tracker.state p) ∧
          (report.NamesOther p (c.tracker.state p).source →
            ∃ source, (p, source) ∈ report.sources ∧
              (c.told report).tracker.state p = .rotate source 0) := by
  intro once
  have hNamesOnce : (once.map Cache.name).Nodup := by
    rw [List.map_map]
    exact hNames
  have hNonnegOnce : ∀ c ∈ once, c.tracker.Nonnegative :=
    List.forall_mem_map.mpr fun c hm => nonnegative_told (hNonneg c hm) hRange
  refine ⟨applyReport_eq_map hNames hNonneg hRange, ?_, fun c hm => ⟨?_, ?_, rfl, ?_⟩⟩
  · rw [applyReport_eq_map hNamesOnce hNonnegOnce hRange, List.map_map]
    exact congrArg (·, Except.ok ()) (List.map_congr_left fun c _ => c.told_told report)
  · exact applyReport_alone (hNonneg c hm) hRange
  · have hUnder : (report.under c.name).InRange := fun named hNamed =>
      hRange named (List.mem_of_mem_filter hNamed)
    rw [applyReport_alone (hNonneg c hm) hUnder, c.told_under report]
  · intro p hUnnumbered
    exact Tracker.state_told_of_unnumbered hUnnumbered

/-- A member lists a partition under the source that one of two caches tracks, then under the one that
the other tracks. Both start over, both times, and the numbers for one of them do nothing to the
other. -/
theorem applyReport_again_contradictory :
    let orders := (Cache.create "orders" (.ofName "orders") .default).withTracker
      ((Tracker.empty 10).setState 3 ⟨7, 20, 15, 2⟩)
    let users := (Cache.create "users" (.ofName "users") .default).withTracker
      ((Tracker.empty 10).setState 3 ⟨8, 5, 5, 0⟩)
    let report : MemberReport :=
      ⟨[(3, 8), (3, 7)], [("orders", [(3, 40), (3, 12)]), ("others", [(3, 99)]), ("orders", [(3, 41)])]⟩
    ∃ orders' users', applyReport [orders, users] report = ([orders', users'], .ok ()) ∧
      applyReport [orders', users'] report = ([orders', users'], .ok ()) ∧
      orders'.tracker.state 3 = ⟨7, 41, 0, 40⟩ ∧ users'.tracker.state 3 = ⟨7, 0, 0, 0⟩ := by
  intro orders users report
  have hEmpty : (Tracker.empty 10).Nonnegative := fun p m h => by simp [Tracker.empty] at h
  have hNames : ([orders, users].map Cache.name).Nodup := by decide
  have hNonneg : ∀ c ∈ [orders, users], c.tracker.Nonnegative := by
    simp only [List.forall_mem_cons]
    exact ⟨hEmpty.setState 3 (by decide), hEmpty.setState 3 (by decide), by simp⟩
  have hRange : report.InRange := by
    unfold MemberReport.InRange
    decide
  obtain ⟨hOnce, hTwice, -⟩ := applyReport_again [orders, users] report hNames hNonneg hRange
  exact ⟨orders.told report, users.told report, hOnce, hTwice, by decide, by decide⟩

end NearCache
