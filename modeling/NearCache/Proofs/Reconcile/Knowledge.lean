import NearCache.Proofs.Reconcile.Report

/-!
What a round of anti-entropy leaves of the knowledge that a cache had. A partition for which no
member names another source only gains. One for which some member does is thrown back to zero on the
way, even where a later member names the old source again.
-/

namespace NearCache

/-- The later knowledge of a partition: same source, same floor, and it reaches as far. -/
structure PartitionState.KeptIn (m m' : PartitionState) : Prop where
  source : m'.source = m.source
  latest : m.latest ≤ m'.latest
  floor : m'.floor = m.floor

theorem PartitionState.KeptIn.trans {m m' m'' : PartitionState} (h : m.KeptIn m')
    (h' : m'.KeptIn m'') : m.KeptIn m'' :=
  ⟨h'.source.trans h.source, le_trans h.latest h'.latest, h'.floor.trans h.floor⟩

theorem PartitionState.advance_keptIn {m m' : PartitionState} {next : Sequence} {reported : Bool}
    (h : m.advance next reported = .ok m') : m.KeptIn m' :=
  ⟨advance_source h, advance_latest h ▸ le_max_left _ _, advance_floor h⟩

/-- A report names another source for a partition than this one. -/
def MemberReport.NamesOther (report : MemberReport) (p : PartitionId) (source : SourceId) : Prop :=
  ∃ s, (p, s) ∈ report.sources ∧ s ≠ source

section Report

variable {t t' : Tracker} {p : PartitionId} {m : PartitionState} {report : MemberReport}
  {name : String}

theorem keptIn_report (hKnown : t.partitions[p]? = some m) (hSame : ¬report.NamesOther p m.source)
    (h : (t.repairSources report.sources).repairSequences (report.named name) = (t', .ok ())) :
    ∃ m', t'.partitions[p]? = some m' ∧ m.KeptIn m' := by
  have hSources : ∀ s, (p, s) ∈ report.sources → s = m.source := by
    intro s hm
    by_contra hOther
    exact hSame ⟨s, hm, hOther⟩
  refine Tracker.known_repairSequences (Tracker.known_repairSources_of_same hKnown hSources)
    ⟨rfl, le_refl _, rfl⟩ ?_ h
  exact fun m₁ m₂ q hKept hAdvance => hKept.trans (PartitionState.advance_keptIn hAdvance)

theorem floor_report_of_zero (hKnown : t.partitions[p]? = some m) (hFloor : m.floor = 0)
    (h : (t.repairSources report.sources).repairSequences (report.named name) = (t', .ok ())) :
    ∃ m', t'.partitions[p]? = some m' ∧ m'.floor = 0 := by
  have hStep : ∀ s, (p, s) ∈ report.sources → ∀ m : PartitionState, m.floor = 0 →
      (m.adoptSource s).floor = 0 := fun s _ m => PartitionState.adoptSource_floor s
  obtain ⟨m₁, hKnown₁, hFloor₁⟩ := Tracker.known_repairSources hKnown hFloor hStep
  exact Tracker.known_repairSequences hKnown₁ hFloor₁
    (fun m₂ m₃ q hZero hAdvance => (PartitionState.advance_floor hAdvance).trans hZero) h

theorem floor_report_of_other (hKnown : t.partitions[p]? = some m)
    (hOther : report.NamesOther p m.source)
    (h : (t.repairSources report.sources).repairSequences (report.named name) = (t', .ok ())) :
    ∃ m', t'.partitions[p]? = some m' ∧ m'.floor = 0 := by
  obtain ⟨s, hNamed, hNe⟩ := hOther
  obtain ⟨m₁, hKnown₁, hFloor₁⟩ := Tracker.known_repairSources_of_other hKnown hNamed hNe
  exact Tracker.known_repairSequences hKnown₁ hFloor₁
    (fun m₂ m₃ q hZero hAdvance => (PartitionState.advance_floor hAdvance).trans hZero) h

end Report

section Round

variable {caches caches' : List Cache} {reports : List MemberReport} {i : Nat} {c : Cache}
  {p : PartitionId} {m : PartitionState}

theorem applyReports_cons_ok {report : MemberReport}
    (h : applyReports caches (report :: reports) = (caches', .ok ())) :
    ∃ middle, applyReport caches report = (middle, .ok ()) ∧
      applyReports middle reports = (caches', .ok ()) := by
  cases hFirst : applyReport caches report with
  | mk middle result =>
      cases result with
      | error fault => simp [applyReports, hFirst] at h
      | ok done =>
          rw [applyReports, hFirst] at h
          exact ⟨middle, rfl, h⟩

/-- Where no number tracked is negative, a whole round is applied. -/
theorem applyReports_nonnegative (h : ∀ c ∈ caches, c.tracker.Nonnegative)
    (hReports : ∀ report ∈ reports, report.InRange) :
    ∃ caches', applyReports caches reports = (caches', .ok ()) := by
  induction reports generalizing caches with
  | nil => exact ⟨caches, rfl⟩
  | cons report rest ih =>
      rw [List.forall_mem_cons] at hReports
      obtain ⟨middle, hFirst, hMiddle⟩ := applyReport_nonnegative h hReports.1
      obtain ⟨caches', hRest⟩ := ih hMiddle hReports.2
      refine ⟨caches', ?_⟩
      rw [applyReports, hFirst]
      exact hRest

/-- What every report of a round keeps of a partition is kept by the round. -/
theorem known_round {P : PartitionState → Prop} (hNames : (caches.map Cache.name).Nodup)
    (h : applyReports caches reports = (caches', .ok ())) (hCache : caches[i]? = some c)
    (hKnown : c.tracker.partitions[p]? = some m) (hStart : P m)
    (hStep : ∀ report ∈ reports, ∀ (t t' : Tracker) (m : PartitionState),
      t.partitions[p]? = some m → P m →
      (t.repairSources report.sources).repairSequences (report.named c.name) = (t', .ok ()) →
      ∃ m', t'.partitions[p]? = some m' ∧ P m') :
    ∃ c' m', caches'[i]? = some c' ∧ c'.tracker.partitions[p]? = some m' ∧ P m' := by
  induction reports generalizing caches c m with
  | nil =>
      cases h
      exact ⟨c, m, hCache, hKnown, hStart⟩
  | cons report rest ih =>
      rw [List.forall_mem_cons] at hStep
      obtain ⟨middle, hFirst, hRest⟩ := applyReports_cons_ok h
      obtain ⟨hNames', hEach⟩ := applyReport_ok hNames hFirst
      obtain ⟨t, hMiddle, hReport⟩ := hEach i c hCache
      obtain ⟨m₁, hKnown₁, hKept⟩ := hStep.1 _ _ m hKnown hStart hReport
      exact ih (hNames' ▸ hNames) hRest hMiddle hKnown₁ hKept hStep.2

theorem keptIn_round (hNames : (caches.map Cache.name).Nodup)
    (h : applyReports caches reports = (caches', .ok ())) (hCache : caches[i]? = some c)
    (hKnown : c.tracker.partitions[p]? = some m)
    (hSame : ∀ report ∈ reports, ¬report.NamesOther p m.source) :
    ∃ c' m', caches'[i]? = some c' ∧ c'.tracker.partitions[p]? = some m' ∧ m.KeptIn m' := by
  refine known_round hNames h hCache hKnown ⟨rfl, le_refl _, rfl⟩ ?_
  intro report hm t t' m₁ hKnown₁ hKept hReport
  obtain ⟨m₂, hKnown₂, hKept'⟩ := keptIn_report hKnown₁ (hKept.source ▸ hSame report hm) hReport
  exact ⟨m₂, hKnown₂, hKept.trans hKept'⟩

theorem floor_round_of_zero (hNames : (caches.map Cache.name).Nodup)
    (h : applyReports caches reports = (caches', .ok ())) (hCache : caches[i]? = some c)
    (hKnown : c.tracker.partitions[p]? = some m) (hFloor : m.floor = 0) :
    ∃ c' m', caches'[i]? = some c' ∧ c'.tracker.partitions[p]? = some m' ∧ m'.floor = 0 :=
  known_round hNames h hCache hKnown hFloor
    fun _ _ _ _ _ hKnown₁ hFloor₁ hReport => floor_report_of_zero hKnown₁ hFloor₁ hReport

/-- The first report that names another source throws the partition back, and nothing in the rest of
the round raises the floor again. -/
theorem floor_round_of_other (hNames : (caches.map Cache.name).Nodup)
    (h : applyReports caches reports = (caches', .ok ())) (hCache : caches[i]? = some c)
    (hKnown : c.tracker.partitions[p]? = some m)
    (hOther : ∃ report ∈ reports, report.NamesOther p m.source) :
    ∃ c' m', caches'[i]? = some c' ∧ c'.tracker.partitions[p]? = some m' ∧ m'.floor = 0 := by
  induction reports generalizing caches c m with
  | nil => simp at hOther
  | cons report rest ih =>
      obtain ⟨middle, hFirst, hRest⟩ := applyReports_cons_ok h
      obtain ⟨hNames', hEach⟩ := applyReport_ok hNames hFirst
      obtain ⟨t, hMiddle, hReport⟩ := hEach i c hCache
      by_cases hHere : report.NamesOther p m.source
      · obtain ⟨m₁, hKnown₁, hFloor₁⟩ := floor_report_of_other hKnown hHere hReport
        exact floor_round_of_zero (hNames' ▸ hNames) hRest hMiddle hKnown₁ hFloor₁
      · obtain ⟨m₁, hKnown₁, hKept⟩ := keptIn_report hKnown hHere hReport
        refine ih (hNames' ▸ hNames) hRest hMiddle hKnown₁ ?_
        obtain ⟨later, hLater, hNames⟩ := hOther
        rcases List.mem_cons.mp hLater with rfl | hLater
        · exact absurd hNames hHere
        · exact ⟨later, hLater, hKept.source ▸ hNames⟩

end Round

/-- What a round leaves of a partition. The round is applied in full, since no number tracked is
negative. If no member names a source other than the one that the partition tracks, it still tracks
that source, its latest number is not lower and its floor is the same. If some member does, the floor
is at zero after the round, whatever source the partition tracks then. -/
theorem knowledge_after_round (caches : List Cache) (reports : List MemberReport)
    (hNames : (caches.map Cache.name).Nodup) (hNonneg : ∀ c ∈ caches, c.tracker.Nonnegative)
    (hReports : ∀ report ∈ reports, report.InRange) :
    ∃ caches', applyReports caches reports = (caches', .ok ()) ∧
      ∀ (i : Nat) (c : Cache) (p : PartitionId) (m : PartitionState), caches[i]? = some c →
        c.tracker.partitions[p]? = some m →
        ∃ c' m', caches'[i]? = some c' ∧ c'.tracker.partitions[p]? = some m' ∧
          ((∀ report ∈ reports, ¬report.NamesOther p m.source) → m.KeptIn m') ∧
          ((∃ report ∈ reports, report.NamesOther p m.source) → m'.floor = 0) := by
  obtain ⟨caches', hApplied⟩ := applyReports_nonnegative hNonneg hReports
  refine ⟨caches', hApplied, fun i c p m hCache hKnown => ?_⟩
  by_cases hOther : ∃ report ∈ reports, report.NamesOther p m.source
  · obtain ⟨c', m', hCache', hKnown', hFloor⟩ :=
      floor_round_of_other hNames hApplied hCache hKnown hOther
    refine ⟨c', m', hCache', hKnown', fun hSame => ?_, fun _ => hFloor⟩
    obtain ⟨report, hm, hNamed⟩ := hOther
    exact absurd hNamed (hSame report hm)
  · have hSame : ∀ report ∈ reports, ¬report.NamesOther p m.source :=
      fun report hm hNamed => hOther ⟨report, hm, hNamed⟩
    obtain ⟨c', m', hCache', hKnown', hKept⟩ := keptIn_round hNames hApplied hCache hKnown hSame
    exact ⟨c', m', hCache', hKnown', fun _ => hKept, fun h => absurd h hOther⟩

/-- Two members that agree on the source of a partition leave its floor at 15. -/
theorem knowledge_after_round_of_agreement :
    let c := (Cache.create "orders" (.ofName "orders") .default).withTracker
      ((Tracker.empty 10).setState 3 ⟨7, 20, 15, 0⟩)
    let reports : List MemberReport :=
      [⟨[(4, 8)], [("orders", [(3, 12)])]⟩, ⟨[(3, 7)], [("orders", [(3, 40)])]⟩]
    ([c].map Cache.name).Nodup ∧ (∀ x ∈ [c], Tracker.Nonnegative x.tracker) ∧
      (∀ report ∈ reports, report.InRange) ∧
      ∃ c' m', applyReports [c] reports = ([c'], .ok ()) ∧
        c'.tracker.partitions[(3 : PartitionId)]? = some m' ∧
        PartitionState.KeptIn ⟨7, 20, 15, 0⟩ m' := by
  intro c reports
  have hNames : ([c].map Cache.name).Nodup := by decide
  have hEmpty : (Tracker.empty 10).Nonnegative := fun p m h => by simp [Tracker.empty] at h
  have hNonneg : ∀ x ∈ [c], Tracker.Nonnegative x.tracker := by
    intro x hm
    rw [List.mem_singleton.mp hm]
    exact hEmpty.setState 3 (by decide)
  have hReports : ∀ report ∈ reports, report.InRange := by
    unfold MemberReport.InRange
    decide
  obtain ⟨caches', hApplied, hEach⟩ := knowledge_after_round [c] reports hNames hNonneg hReports
  obtain ⟨c', m', hCache, hKnown, hKept, -⟩ := hEach 0 c 3 ⟨7, 20, 15, 0⟩ rfl (by decide)
  have hLength : caches' = [c'] := by
    have hSingle : (applyReports [c] reports).1.length = 1 := by decide
    rw [hApplied] at hSingle
    obtain ⟨only, rfl⟩ := List.length_eq_one_iff.mp hSingle
    exact congrArg (fun x => [x]) (Option.some.inj hCache)
  have hSame : ∀ report ∈ reports, ¬report.NamesOther 3 7 := by
    rintro report hm ⟨s, hNamed, hOther⟩
    simp only [reports, List.mem_cons, List.not_mem_nil, or_false] at hm
    rcases hm with rfl | rfl <;> simp_all
  exact ⟨hNames, hNonneg, hReports, c', m', hLength ▸ hApplied, hKnown, hKept hSame⟩

/-- Between the old owner of a partition and the new one a round gives up what it knew. The first
member names another source, the second the one that was tracked all along, with the number that was
tracked all along. The latest number is the same as before, but the floor is gone, and an entry that
was stale before the round is read after it. -/
theorem knowledge_lost_between_members :
    let key : Data := ⟨[1]⟩
    let c := ((((Cache.create "orders" (.ofName "orders") .default).withTracker
      ((Tracker.empty 10).setState 3 ⟨7, 20, 20, 0⟩)).put key ⟨[9]⟩ 3 0 0).1.withTracker
      ((Tracker.empty 10).setState 3 ⟨7, 40, 40, 0⟩))
    let reports : List MemberReport := [⟨[(3, 8)], []⟩, ⟨[(3, 7)], [("orders", [(3, 40)])]⟩]
    (c.tracker.state 3 = ⟨7, 40, 40, 0⟩ ∧ (c.get key 0).2 = none) ∧
    ∃ c', applyReports [c] reports = ([c'], .ok ()) ∧ c'.tracker.state 3 = ⟨7, 40, 0, 40⟩ ∧
      (c'.get key 0).2 = some (.binary ⟨[9]⟩) := by
  intro key c reports
  refine ⟨by decide, c.withTracker ((Tracker.empty 10).setState 3 ⟨7, 40, 0, 40⟩), ?_, ?_, ?_⟩
  · decide
  · decide
  · decide

end NearCache
