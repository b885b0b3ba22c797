import NearCache.Proofs.Tracker.Run
import NearCache.Reconcile

/-!
What a report of an anti-entropy round does to one cache. Caches of different names do not share a
report: each takes all sources and the sequence numbers under its own name, as if it stood alone.
-/

namespace NearCache

/-- The sequence numbers that a report gives under a cache name, in order. -/
def MemberReport.named (report : MemberReport) (name : String) : List (PartitionId × Sequence) :=
  (report.sequences.filter (·.1 = name)).flatMap Prod.snd

/-- All numbers in a report are sequence numbers that can be told. -/
def MemberReport.InRange (report : MemberReport) : Prop :=
  ∀ named ∈ report.sequences, ∀ p ∈ named.2, p.2 ≤ maxSequence

namespace PartitionState

theorem advance_of_le {m : PartitionState} {next : Sequence} {reported : Bool}
    (h : next ≤ m.latest) : m.advance next reported = .ok m :=
  if_pos h

theorem advance_of_lt {m : PartitionState} {next : Sequence} {reported : Bool}
    (hNewer : m.latest < next) (hRange : next - m.latest ≤ maxSequence) :
    m.advance next reported =
      .ok { m with latest := next, missed := max m.missed (skipped m.latest next reported) } := by
  rw [advance, if_neg (by lia), if_neg (by lia)]

/-- From a number that is not negative no distance is too large. -/
theorem advance_ok {m : PartitionState} {next : Sequence} (reported : Bool)
    (hLatest : 0 ≤ m.latest) (hRange : next ≤ maxSequence) :
    ∃ m', m.advance next reported = .ok m' := by
  rcases le_or_gt next m.latest with hOld | hNewer
  · exact ⟨m, advance_of_le hOld⟩
  · exact ⟨_, advance_of_lt hNewer (by lia)⟩

theorem advance_latest {m m' : PartitionState} {next : Sequence} {reported : Bool}
    (h : m.advance next reported = .ok m') : m'.latest = max m.latest next := by
  unfold advance at h
  split_ifs at h with hOld
  · cases h
    exact (max_eq_left hOld).symm
  · cases h
    exact (max_eq_right (by lia)).symm

theorem advance_source {m m' : PartitionState} {next : Sequence} {reported : Bool}
    (h : m.advance next reported = .ok m') : m'.source = m.source := by
  unfold advance at h
  split_ifs at h <;> cases h <;> rfl

theorem advance_floor {m m' : PartitionState} {next : Sequence} {reported : Bool}
    (h : m.advance next reported = .ok m') : m'.floor = m.floor := by
  unfold advance at h
  split_ifs at h <;> cases h <;> rfl

theorem adoptSource_self (m : PartitionState) : m.adoptSource m.source = m :=
  if_pos rfl

theorem adoptSource_floor {m : PartitionState} (source : SourceId) (h : m.floor = 0) :
    (m.adoptSource source).floor = 0 := by
  unfold adoptSource
  split_ifs
  · exact h
  · rfl

theorem adoptSource_of_ne {m : PartitionState} {source : SourceId} (h : m.source ≠ source) :
    m.adoptSource source = rotate source 0 :=
  if_neg h

end PartitionState

namespace Tracker

/-- What is known of no partition is negative. -/
def Nonnegative (t : Tracker) : Prop :=
  ∀ (p : PartitionId) (m : PartitionState), t.partitions[p]? = some m → 0 ≤ m.latest

theorem Nonnegative.state {t : Tracker} (h : t.Nonnegative) (p : PartitionId) :
    0 ≤ (t.state p).latest := by
  unfold Tracker.state
  cases hKnown : t.partitions[p]? with
  | none => exact le_refl _
  | some m => exact h p m hKnown

theorem Nonnegative.setState {t : Tracker} (h : t.Nonnegative) (p : PartitionId)
    {m : PartitionState} (hm : 0 ≤ m.latest) : (t.setState p m).Nonnegative := by
  intro q m' hKnown
  rw [getElem?_setState] at hKnown
  split_ifs at hKnown
  · cases hKnown
    exact hm
  · exact h q m' hKnown

theorem repairSequence_of_ok {t : Tracker} {p : PartitionId} {sequence : Sequence}
    {reported : Bool} {m : PartitionState} (h : (t.state p).advance sequence reported = .ok m) :
    t.repairSequence p sequence reported =
      .ok (t.setState p m, decide ((t.state p).latest < sequence)) := by
  rw [repairSequence, h]
  rfl

section Sources

variable {t : Tracker} {p : PartitionId} {sources : List (PartitionId × SourceId)}
  {m : PartitionState}

theorem repairSources_cons (t : Tracker) (first : PartitionId × SourceId)
    (rest : List (PartitionId × SourceId)) :
    t.repairSources (first :: rest) =
      (t.setState first.1 ((t.state first.1).adoptSource first.2)).repairSources rest :=
  rfl

theorem Nonnegative.repairSources (h : t.Nonnegative) : (t.repairSources sources).Nonnegative := by
  induction sources generalizing t with
  | nil => exact h
  | cons first rest ih =>
      refine ih (h.setState _ ?_)
      have hState := h.state first.1
      unfold PartitionState.adoptSource
      split_ifs
      · exact hState
      · exact le_refl _

/-- What every source named for a partition keeps is kept by all of them. -/
theorem known_repairSources {P : PartitionState → Prop} (hKnown : t.partitions[p]? = some m)
    (hStart : P m) (hStep : ∀ s, (p, s) ∈ sources → ∀ m, P m → P (m.adoptSource s)) :
    ∃ m', (t.repairSources sources).partitions[p]? = some m' ∧ P m' := by
  induction sources generalizing t m with
  | nil => exact ⟨m, hKnown, hStart⟩
  | cons first rest ih =>
      have hRest : ∀ s, (p, s) ∈ rest → ∀ m, P m → P (m.adoptSource s) :=
        fun s hm => hStep s (List.mem_cons_of_mem _ hm)
      rw [repairSources_cons]
      by_cases hp : first.1 = p
      · subst hp
        refine ih (m := m.adoptSource first.2) ?_ (hStep first.2 (List.mem_cons_self ..) m hStart)
          hRest
        rw [getElem?_setState, if_pos rfl, state_of_known _ _ hKnown]
      · refine ih ?_ hStart hRest
        rw [getElem?_setState, if_neg hp, hKnown]

/-- A partition for which no other source is named stays as it is. -/
theorem known_repairSources_of_same (hKnown : t.partitions[p]? = some m)
    (hSame : ∀ s, (p, s) ∈ sources → s = m.source) :
    (t.repairSources sources).partitions[p]? = some m := by
  obtain ⟨m', hKnown', rfl⟩ := known_repairSources (P := (· = m)) hKnown rfl
    fun s hm m' hEq => by
      rw [hEq, hSame s hm]
      exact m.adoptSource_self
  exact hKnown'

/-- A source other than the one that a partition tracks throws the partition back to zero. -/
theorem known_repairSources_of_other (hKnown : t.partitions[p]? = some m) {s : SourceId}
    (hNamed : (p, s) ∈ sources) (hOther : s ≠ m.source) :
    ∃ m', (t.repairSources sources).partitions[p]? = some m' ∧ m'.floor = 0 := by
  obtain ⟨before, after, rfl⟩ := List.append_of_mem hNamed
  rw [show t.repairSources (before ++ (p, s) :: after) =
    (t.repairSources before).repairSources ((p, s) :: after) from List.foldl_append]
  -- Either an earlier source did it, or this is the first one that differs.
  have hFirst : ∀ s', (p, s') ∈ before → ∀ m', m'.floor = 0 ∨ m' = m →
      (m'.adoptSource s').floor = 0 ∨ m'.adoptSource s' = m := by
    rintro s' - m' (hFloor | rfl)
    · exact Or.inl (PartitionState.adoptSource_floor s' hFloor)
    · by_cases hSame : m'.source = s'
      · exact Or.inr (if_pos hSame)
      · exact Or.inl (by rw [PartitionState.adoptSource_of_ne hSame]; rfl)
  obtain ⟨m', hMiddle, hBefore⟩ := known_repairSources hKnown (Or.inr rfl) hFirst
  rw [repairSources_cons]
  refine known_repairSources (m := m'.adoptSource s) ?_ ?_
    fun s' _ m' => PartitionState.adoptSource_floor s'
  · rw [getElem?_setState, if_pos rfl, state_of_known _ _ hMiddle]
  · rcases hBefore with hFloor | rfl
    · exact PartitionState.adoptSource_floor s hFloor
    · rw [PartitionState.adoptSource_of_ne hOther.symm]
      rfl

end Sources

section Sequences

variable {t t' : Tracker} {p : PartitionId} {sequences more : List (PartitionId × Sequence)}
  {m : PartitionState}

theorem repairSequences_cons_of_ok {first : PartitionId × Sequence}
    (h : (t.state first.1).advance first.2 true = .ok m) :
    t.repairSequences (first :: sequences) = (t.setState first.1 m).repairSequences sequences := by
  rw [repairSequences, repairSequence_of_ok h]

theorem ok_of_repairSequences_cons {first : PartitionId × Sequence}
    (h : t.repairSequences (first :: sequences) = (t', .ok ())) :
    ∃ m, (t.state first.1).advance first.2 true = .ok m ∧
      (t.setState first.1 m).repairSequences sequences = (t', .ok ()) := by
  cases hFirst : (t.state first.1).advance first.2 true with
  | error fault => simp [repairSequences, repairSequence, hFirst, Except.map] at h
  | ok m => exact ⟨m, rfl, repairSequences_cons_of_ok hFirst ▸ h⟩

theorem repairSequences_append (h : t.repairSequences sequences = (t', .ok ())) :
    t.repairSequences (sequences ++ more) = t'.repairSequences more := by
  induction sequences generalizing t with
  | nil =>
      cases h
      rfl
  | cons first rest ih =>
      obtain ⟨m, hFirst, hRest⟩ := ok_of_repairSequences_cons h
      rw [List.cons_append, repairSequences_cons_of_ok hFirst]
      exact ih hRest

theorem Nonnegative.repairSequences (h : t.Nonnegative)
    (hRange : ∀ p ∈ sequences, p.2 ≤ maxSequence) :
    ∃ t', t.repairSequences sequences = (t', .ok ()) ∧ t'.Nonnegative := by
  induction sequences generalizing t with
  | nil => exact ⟨t, rfl, h⟩
  | cons first rest ih =>
      have hState := h.state first.1
      obtain ⟨m, hFirst⟩ :=
        PartitionState.advance_ok true hState (hRange first (List.mem_cons_self ..))
      have hLatest : 0 ≤ m.latest := by
        rw [PartitionState.advance_latest hFirst]
        lia
      rw [repairSequences_cons_of_ok hFirst]
      exact ih (h.setState _ hLatest) fun p hm => hRange p (List.mem_cons_of_mem _ hm)

/-- What every number told of a partition keeps is kept by all of them. -/
theorem known_repairSequences {P : PartitionState → Prop} (hKnown : t.partitions[p]? = some m)
    (hStart : P m) (hStep : ∀ (m m' : PartitionState) (q : Sequence), P m →
      m.advance q true = .ok m' → P m')
    (h : t.repairSequences sequences = (t', .ok ())) :
    ∃ m', t'.partitions[p]? = some m' ∧ P m' := by
  induction sequences generalizing t m with
  | nil =>
      cases h
      exact ⟨m, hKnown, hStart⟩
  | cons first rest ih =>
      obtain ⟨m', hFirst, hRest⟩ := ok_of_repairSequences_cons h
      by_cases hp : first.1 = p
      · subst hp
        rw [state_of_known _ _ hKnown] at hFirst
        refine ih (m := m') ?_ (hStep m m' first.2 hStart hFirst) hRest
        rw [getElem?_setState, if_pos rfl]
      · refine ih ?_ hStart hRest
        rw [getElem?_setState, if_neg hp, hKnown]

/-- A partition of which nothing is told stays as it is. -/
theorem known_repairSequences_of_none (hKnown : t.partitions[p]? = some m)
    (hNone : sequences.filter (·.1 = p) = []) (h : t.repairSequences sequences = (t', .ok ())) :
    t'.partitions[p]? = some m := by
  induction sequences generalizing t with
  | nil =>
      cases h
      exact hKnown
  | cons first rest ih =>
      obtain ⟨m', -, hRest⟩ := ok_of_repairSequences_cons h
      rw [List.filter_cons] at hNone
      split_ifs at hNone with hp
      refine ih ?_ hNone hRest
      rw [getElem?_setState, if_neg (by simpa using hp), hKnown]

/-- A partition of which one number is told moves on to that number. -/
theorem known_repairSequences_of_once {q : Sequence} (hKnown : t.partitions[p]? = some m)
    (hOnce : sequences.filter (·.1 = p) = [(p, q)])
    (h : t.repairSequences sequences = (t', .ok ())) :
    ∃ m', m.advance q true = .ok m' ∧ t'.partitions[p]? = some m' := by
  induction sequences generalizing t with
  | nil => cases hOnce
  | cons first rest ih =>
      obtain ⟨m', hFirst, hRest⟩ := ok_of_repairSequences_cons h
      rw [List.filter_cons] at hOnce
      split_ifs at hOnce with hp
      · obtain ⟨rfl, hNone⟩ := List.cons.inj hOnce
        rw [state_of_known _ _ hKnown] at hFirst
        refine ⟨m', hFirst, known_repairSequences_of_none ?_ hNone hRest⟩
        rw [getElem?_setState, if_pos rfl]
      · refine ih ?_ hOnce hRest
        rw [getElem?_setState, if_neg (by simpa using hp), hKnown]

end Sequences

end Tracker

namespace Cache

@[simp]
theorem tracker_withTracker (c : Cache) (t : Tracker) : (c.withTracker t).tracker = t := rfl

@[simp]
theorem withTracker_withTracker (c : Cache) (t t' : Tracker) :
    (c.withTracker t).withTracker t' = c.withTracker t' := rfl

@[simp]
theorem name_withTracker (c : Cache) (t : Tracker) : (c.withTracker t).name = c.name := rfl

/-- Of a cache that a report changed, only the tracker is new. -/
theorem repairSequences_ok {c c' : Cache} {sequences : List (PartitionId × Sequence)}
    (h : c.repairSequences sequences = (c', .ok ())) :
    ∃ t, c.tracker.repairSequences sequences = (t, .ok ()) ∧ c' = c.withTracker t := by
  unfold repairSequences at h
  rw [Prod.mk.injEq] at h
  exact ⟨_, Prod.ext rfl h.2, h.1.symm⟩

theorem repairSequences_append {c c' : Cache} {sequences more : List (PartitionId × Sequence)}
    (h : c.repairSequences sequences = (c', .ok ())) :
    c.repairSequences (sequences ++ more) = c'.repairSequences more := by
  obtain ⟨t, hTracker, rfl⟩ := repairSequences_ok h
  unfold repairSequences
  rw [Tracker.repairSequences_append hTracker]
  rfl

end Cache

section Caches

variable {caches caches' : List Cache}

/-- Among caches of different names, the one of the name takes the numbers and the others do not. -/
theorem repairNamed_ok {name : String} {sequences : List (PartitionId × Sequence)}
    (hNames : (caches.map Cache.name).Nodup)
    (h : repairNamed name sequences caches = (caches', .ok ())) :
    caches'.map Cache.name = caches.map Cache.name ∧
    ∀ (i : Nat) (c : Cache), caches[i]? = some c → ∃ c', caches'[i]? = some c' ∧
      if c.name = name then c.repairSequences sequences = (c', .ok ()) else c' = c := by
  induction caches generalizing caches' with
  | nil =>
      cases h
      exact ⟨rfl, by simp⟩
  | cons first rest ih =>
      rw [List.map_cons, List.nodup_cons] at hNames
      unfold repairNamed at h
      split_ifs at h with hFirst
      · rw [Prod.mk.injEq] at h
        obtain ⟨rfl, hOk⟩ := h
        refine ⟨rfl, fun i c hc => ?_⟩
        cases i with
        | zero =>
            cases hc
            exact ⟨_, rfl, by rw [if_pos hFirst]; exact Prod.ext rfl hOk⟩
        | succ i =>
            have hOther : c.name ≠ name := by
              rintro rfl
              exact hNames.1 (hFirst ▸ List.mem_map_of_mem (List.mem_of_getElem? hc))
            exact ⟨c, hc, by rw [if_neg hOther]⟩
      · rw [Prod.mk.injEq] at h
        obtain ⟨rfl, hOk⟩ := h
        obtain ⟨hSame, hEach⟩ := ih hNames.2 (Prod.ext rfl hOk)
        refine ⟨by rw [List.map_cons, List.map_cons, hSame], fun i c hc => ?_⟩
        cases i with
        | zero =>
            cases hc
            exact ⟨first, rfl, by rw [if_neg hFirst]⟩
        | succ i => exact hEach i c hc

theorem repairAllNamed_ok {sequences : List (String × List (PartitionId × Sequence))}
    (hNames : (caches.map Cache.name).Nodup)
    (h : repairAllNamed caches sequences = (caches', .ok ())) :
    caches'.map Cache.name = caches.map Cache.name ∧
    ∀ (i : Nat) (c : Cache), caches[i]? = some c → ∃ c', caches'[i]? = some c' ∧
      c.repairSequences ((sequences.filter (·.1 = c.name)).flatMap Prod.snd) = (c', .ok ()) := by
  induction sequences generalizing caches with
  | nil =>
      cases h
      exact ⟨rfl, fun i c hc => ⟨c, hc, rfl⟩⟩
  | cons named rest ih =>
      cases hFirst : repairNamed named.1 named.2 caches with
      | mk middle result =>
          cases result with
          | error fault => simp [repairAllNamed, hFirst] at h
          | ok done =>
              rw [repairAllNamed, hFirst] at h
              obtain ⟨hSame, hEach⟩ := repairNamed_ok hNames hFirst
              obtain ⟨hSame', hEach'⟩ := ih (hSame ▸ hNames) h
              refine ⟨hSame'.trans hSame, fun i c hc => ?_⟩
              obtain ⟨c₁, hc₁, hStep⟩ := hEach i c hc
              obtain ⟨c₂, hc₂, hRest⟩ := hEach' i c₁ hc₁
              refine ⟨c₂, hc₂, ?_⟩
              rw [List.filter_cons]
              split_ifs at hStep with hName
              · obtain ⟨t, -, rfl⟩ := Cache.repairSequences_ok hStep
                rw [if_pos (by simp [hName]), List.flatMap_cons,
                  Cache.repairSequences_append hStep]
                exact hRest
              · subst hStep
                rw [if_neg (by simpa using Ne.symm hName)]
                exact hRest

/-- Among caches of different names each takes all sources of a report and the numbers under its own
name, and nothing of it but the tracker changes. -/
theorem applyReport_ok {report : MemberReport} (hNames : (caches.map Cache.name).Nodup)
    (h : applyReport caches report = (caches', .ok ())) :
    caches'.map Cache.name = caches.map Cache.name ∧
    ∀ (i : Nat) (c : Cache), caches[i]? = some c →
      ∃ t, caches'[i]? = some (c.withTracker t) ∧
        (c.tracker.repairSources report.sources).repairSequences (report.named c.name) =
          (t, .ok ()) := by
  have hMap : (caches.map (·.repairSources report.sources)).map Cache.name =
      caches.map Cache.name := by
    rw [List.map_map]
    rfl
  obtain ⟨hSame, hEach⟩ := repairAllNamed_ok (hMap ▸ hNames) h
  refine ⟨hSame.trans hMap, fun i c hc => ?_⟩
  obtain ⟨c', hc', hRepaired⟩ := hEach i (c.repairSources report.sources) (by simp [hc])
  obtain ⟨t, hTracker, rfl⟩ := Cache.repairSequences_ok hRepaired
  exact ⟨t, hc', hTracker⟩

/-- Where no number tracked is negative, no distance is too large for a report. -/
theorem repairNamed_nonnegative (name : String) {sequences : List (PartitionId × Sequence)}
    (h : ∀ c ∈ caches, c.tracker.Nonnegative) (hRange : ∀ p ∈ sequences, p.2 ≤ maxSequence) :
    ∃ caches', repairNamed name sequences caches = (caches', .ok ()) ∧
      ∀ c ∈ caches', c.tracker.Nonnegative := by
  induction caches with
  | nil => exact ⟨[], rfl, h⟩
  | cons first rest ih =>
      rw [List.forall_mem_cons] at h
      unfold repairNamed
      split_ifs
      · obtain ⟨t, hTracker, ht⟩ := h.1.repairSequences hRange
        refine ⟨first.withTracker t :: rest, ?_, List.forall_mem_cons.mpr ⟨ht, h.2⟩⟩
        simp only [Cache.repairSequences, hTracker]
      · obtain ⟨others, hOthers, hNonneg⟩ := ih h.2
        refine ⟨first :: others, ?_, List.forall_mem_cons.mpr ⟨h.1, hNonneg⟩⟩
        simp only [hOthers]

theorem applyReport_nonnegative {report : MemberReport}
    (h : ∀ c ∈ caches, c.tracker.Nonnegative) (hRange : report.InRange) :
    ∃ caches', applyReport caches report = (caches', .ok ()) ∧
      ∀ c ∈ caches', c.tracker.Nonnegative := by
  obtain ⟨sources, sequences⟩ := report
  have hStart : ∀ c ∈ caches.map (·.repairSources sources), c.tracker.Nonnegative := by
    intro c hc
    obtain ⟨c, hm, rfl⟩ := List.mem_map.mp hc
    exact (h c hm).repairSources
  unfold applyReport
  dsimp only
  generalize caches.map (·.repairSources sources) = start at hStart
  unfold MemberReport.InRange at hRange
  dsimp only at hRange
  induction sequences generalizing start with
  | nil => exact ⟨start, rfl, hStart⟩
  | cons named rest ih =>
      rw [List.forall_mem_cons] at hRange
      obtain ⟨middle, hFirst, hMiddle⟩ := repairNamed_nonnegative named.1 hStart hRange.1
      rw [repairAllNamed, hFirst]
      exact ih hRange.2 middle hMiddle

end Caches

end NearCache
