import NearCache.Proofs.Reconcile.Report

/-!
What a cache knows once it was seeded. A partition of which the members name one source, be it that
one member alone reports it, is tracked under that source, and its floor has reached every number
that came with it, whatever was known before.
-/

namespace NearCache

namespace PartitionState

variable {m : PartitionState} {source : SourceId} {sequence : Sequence}

/-- The partition is tracked under this source, and its floor has reached this number. -/
structure Reaches (m : PartitionState) (source : SourceId) (sequence : Sequence) : Prop where
  source : m.source = source
  latest : sequence ≤ m.latest
  floor : sequence ≤ m.floor

theorem reaches_seedSequence (m : PartitionState) (sequence : Sequence) :
    (m.seedSequence sequence).Reaches m.source sequence := by
  unfold seedSequence
  split_ifs with hNewer
  · exact ⟨rfl, le_refl _, le_refl _⟩
  · exact ⟨rfl, le_of_not_ge hNewer, le_max_right _ _⟩

theorem Reaches.seedSequence (h : m.Reaches source sequence) (other : Sequence) :
    (m.seedSequence other).Reaches source sequence := by
  unfold PartitionState.seedSequence
  split_ifs with hNewer
  · exact ⟨h.source, le_trans h.latest hNewer, le_trans h.latest hNewer⟩
  · exact ⟨h.source, h.latest, le_trans h.floor (le_max_left _ _)⟩

theorem Reaches.repairGap (h : m.Reaches source sequence) (tolerance : Int) :
    (m.repairGap tolerance).Reaches source sequence := by
  unfold PartitionState.repairGap
  split_ifs
  · exact ⟨h.source, h.latest, h.latest⟩
  · exact h

theorem source_adoptSource (m : PartitionState) (source : SourceId) :
    (m.adoptSource source).source = source := by
  unfold adoptSource
  split_ifs with hSame
  · exact hSame
  · rfl

/-- All sources reported for a partition being one, that one is adopted. -/
theorem source_foldl_adoptSource {sources : List SourceId} (hNamed : sources ≠ [])
    (hOne : ∀ s ∈ sources, s = source) (m : PartitionState) :
    (sources.foldl adoptSource m).source = source := by
  obtain ⟨before, last, rfl⟩ := (List.eq_nil_or_concat' sources).resolve_left hNamed
  rw [List.foldl_append, List.foldl_cons, List.foldl_nil, source_adoptSource]
  exact hOne last (List.mem_append_right _ (List.mem_singleton_self last))

theorem foldl_adoptSource_of_same {sources : List SourceId} (hOne : ∀ s ∈ sources, s = m.source) :
    sources.foldl adoptSource m = m := by
  induction sources with
  | nil => rfl
  | cons first rest ih =>
      rw [List.foldl_cons, hOne first List.mem_cons_self, adoptSource_self]
      exact ih fun s hm => hOne s (List.mem_cons_of_mem _ hm)

theorem Reaches.foldl_seedSequence (h : m.Reaches source sequence) (others : List Sequence) :
    (others.foldl PartitionState.seedSequence m).Reaches source sequence := by
  induction others generalizing m with
  | nil => exact h
  | cons first rest ih => exact ih (h.seedSequence first)

theorem reaches_foldl_seedSequence {sequences : List Sequence} (hTold : sequence ∈ sequences)
    (m : PartitionState) : (sequences.foldl seedSequence m).Reaches m.source sequence := by
  induction sequences generalizing m with
  | nil => exact absurd hTold List.not_mem_nil
  | cons first rest ih =>
      have hSource : (m.seedSequence first).source = m.source := (m.reaches_seedSequence first).source
      rcases List.mem_cons.mp hTold with rfl | hTold
      · exact (m.reaches_seedSequence sequence).foldl_seedSequence rest
      · exact hSource ▸ ih hTold (m.seedSequence first)

end PartitionState

namespace Tracker

/-- What a list tells of one partition, in order. -/
def toldOf {α : Type} (p : PartitionId) (told : List (PartitionId × α)) : List α :=
  (told.filter (·.1 = p)).map Prod.snd

theorem mem_toldOf {α : Type} {p : PartitionId} {told : List (PartitionId × α)} {a : α} :
    a ∈ toldOf p told ↔ (p, a) ∈ told := by
  simp [toldOf]

section Updates

variable {α : Type} (update : PartitionState → α → PartitionState) (t : Tracker)
  (told : List (PartitionId × α)) (p : PartitionId)

/-- Updates partitions with what is told of them, in order. -/
def updateAll : Tracker :=
  told.foldl (fun t a => t.setState a.1 (update (t.state a.1) a.2)) t

theorem state_setState (q : PartitionId) (m : PartitionState) :
    (t.setState q m).state p = if q = p then m else t.state p := by
  unfold state
  rw [getElem?_setState]
  split_ifs <;> rfl

/-- Each partition takes what is told of it, and no notice of the rest. -/
theorem getElem?_updateAll :
    (t.updateAll update told).partitions[p]? =
      if toldOf p told = [] then t.partitions[p]?
      else some ((toldOf p told).foldl update (t.state p)) := by
  induction told generalizing t with
  | nil => rfl
  | cons first rest ih =>
      rw [updateAll, List.foldl_cons, ← updateAll, ih, getElem?_setState, state_setState]
      by_cases hOwn : first.1 = p
      · have hTold : toldOf p (first :: rest) = first.2 :: toldOf p rest := by
          simp [toldOf, hOwn]
        rw [hTold, if_pos hOwn, if_pos hOwn, hOwn]
        by_cases hLast : toldOf p rest = []
        · simp [hLast]
        · simp [hLast]
      · have hTold : toldOf p (first :: rest) = toldOf p rest := by simp [toldOf, hOwn]
        rw [hTold, if_neg hOwn, if_neg hOwn]

theorem getElem?_updateAll_of_told (h : toldOf p told ≠ []) :
    (t.updateAll update told).partitions[p]? =
      some ((toldOf p told).foldl update (t.state p)) :=
  (getElem?_updateAll update t told p).trans (if_neg h)

end Updates

/-- A first report is its sources followed by the sequence numbers under the name of the cache. -/
theorem seed_eq (t : Tracker) (name : String) (report : MemberReport) :
    t.seed name report =
      (t.updateAll .adoptSource report.sources).updateAll .seedSequence (report.named name) := by
  have hNamed : ∀ (t : Tracker) (sequences : List (String × List (PartitionId × Sequence))),
      sequences.foldl (fun t named => if named.1 = name then t.seedSequences named.2 else t) t =
        t.updateAll .seedSequence ((sequences.filter (·.1 = name)).flatMap Prod.snd) := by
    intro t sequences
    induction sequences generalizing t with
    | nil => rfl
    | cons first rest ih =>
        rw [List.foldl_cons, ih]
        by_cases hName : first.1 = name
        · simp only [hName, if_true, decide_true, List.filter_cons_of_pos, List.flatMap_cons, updateAll,
            List.foldl_append]
          rfl
        · simp [hName]
  exact hNamed _ _

/-- A partition of the cache is known and reaches this number under this source. -/
def Reaches (t : Tracker) (p : PartitionId) (source : SourceId) (sequence : Sequence) : Prop :=
  ∃ m, t.partitions[p]? = some m ∧ m.Reaches source sequence

section Seeds

variable {t : Tracker} {p : PartitionId} {source : SourceId} {sequence : Sequence}

theorem Reaches.repairGaps (h : t.Reaches p source sequence) :
    t.repairGaps.1.Reaches p source sequence := by
  obtain ⟨m, hKnown, hReached⟩ := h
  refine ⟨m.repairGap t.tolerance, ?_, hReached.repairGap t.tolerance⟩
  rw [getElem?_repairGaps, hKnown, Option.map_some]

/-- A stamp of another source, or below the number that was reached, is stale. -/
theorem Reaches.isStale {s : Position} (h : t.Reaches s.partition source sequence)
    (hBefore : s.source ≠ source ∨ s.sequence < sequence) : t.isStale s = true := by
  obtain ⟨m, hKnown, hReached⟩ := h
  rw [isStale_of_known hKnown, hReached.source]
  exact hBefore.imp_right fun hLess => lt_of_lt_of_le hLess hReached.floor

end Seeds

end Tracker

/-- Of a partition several reports name this source and no other, and one that names it tells this
number under the name of a cache. -/
structure MemberReport.Agree (reports : List MemberReport) (name : String) (p : PartitionId)
    (source : SourceId) (sequence : Sequence) : Prop where
  told : ∃ report ∈ reports, (p, source) ∈ report.sources ∧ (p, sequence) ∈ report.named name
  single : ∀ report ∈ reports, ∀ other, (p, other) ∈ report.sources → other = source

section Reports

variable {t : Tracker} {name : String} {p : PartitionId} {source : SourceId} {sequence : Sequence}
  {report : MemberReport} {reports : List MemberReport}

theorem Tracker.reaches_seed (hSource : (p, source) ∈ report.sources)
    (hSequence : (p, sequence) ∈ report.named name)
    (hSingle : ∀ other, (p, other) ∈ report.sources → other = source) :
    (t.seed name report).Reaches p source sequence := by
  have hTold : source ∈ toldOf p report.sources := mem_toldOf.mpr hSource
  have hNumber : sequence ∈ toldOf p (report.named name) := mem_toldOf.mpr hSequence
  have hKnown := getElem?_updateAll_of_told .adoptSource t report.sources p (List.ne_nil_of_mem hTold)
  have hAdopted := PartitionState.source_foldl_adoptSource (List.ne_nil_of_mem hTold)
    (fun s hm => hSingle s (mem_toldOf.mp hm)) (t.state p)
  refine ⟨_, ?_, hAdopted ▸ PartitionState.reaches_foldl_seedSequence hNumber _⟩
  rw [seed_eq, getElem?_updateAll_of_told _ _ _ _ (List.ne_nil_of_mem hNumber),
    state_of_known _ _ hKnown]

/-- A later report may tell other numbers, but names no other source. -/
theorem Tracker.Reaches.seed (h : t.Reaches p source sequence)
    (hSingle : ∀ other, (p, other) ∈ report.sources → other = source) :
    (t.seed name report).Reaches p source sequence := by
  obtain ⟨m, hKnown, hReached⟩ := h
  have hSame : (toldOf p report.sources).foldl .adoptSource m = m :=
    PartitionState.foldl_adoptSource_of_same fun s hm =>
      (hSingle s (mem_toldOf.mp hm)).trans hReached.source.symm
  have hAdopted : (t.updateAll .adoptSource report.sources).partitions[p]? = some m := by
    rw [getElem?_updateAll, state_of_known _ _ hKnown, hSame, hKnown, ite_self]
  refine ⟨(toldOf p (report.named name)).foldl .seedSequence m, ?_, hReached.foldl_seedSequence _⟩
  rw [seed_eq, getElem?_updateAll, state_of_known _ _ hAdopted, hAdopted]
  split_ifs with hUntold
  · rw [hUntold]
    rfl
  · rfl

/-- Whatever was known before, the cache reaches what the reports agree on. -/
theorem Cache.reaches_seed {c : Cache} (h : MemberReport.Agree reports c.name p source sequence) :
    (c.seed reports).tracker.Reaches p source sequence := by
  obtain ⟨⟨report, hReport, hSource, hSequence⟩, hSingle⟩ := h
  obtain ⟨before, after, rfl⟩ := List.append_of_mem hReport
  have hLater : ∀ {t : Tracker} (later : List MemberReport), t.Reaches p source sequence →
      (∀ report ∈ later, ∀ other, (p, other) ∈ report.sources → other = source) →
      (later.foldl (fun t report => t.seed c.name report) t).Reaches p source sequence := by
    intro t later hReached hOne
    induction later generalizing t with
    | nil => exact hReached
    | cons first rest ih =>
        exact ih (hReached.seed (hOne first List.mem_cons_self))
          fun report hm => hOne report (List.mem_cons_of_mem _ hm)
  have hSeeded : (c.seed (before ++ report :: after)).tracker =
      after.foldl (fun t report => t.seed c.name report)
        ((before.foldl (fun t report => t.seed c.name report) c.tracker).seed c.name report) := by
    rw [← List.foldl_cons, ← List.foldl_append]
    rfl
  rw [hSeeded]
  refine hLater after (Tracker.reaches_seed hSource hSequence (hSingle report hReport)) ?_
  exact fun later hm => hSingle later (List.mem_append_right _ (List.mem_cons_of_mem _ hm))

end Reports

end NearCache
