import NearCache.Proofs.Cache.Redelivery
import NearCache.Proofs.Cache.Run
import NearCache.Proofs.Reconcile.Seeding

/-!
First reports that events have overtaken. The listener of a cache is bound before the members are
asked, so events may tell more of a partition than the report that comes after them. A report that is
newer, or names another source, is taken as it is; an older one of the same source only raises the
floor, and nothing that the events have told is lost.
-/

namespace NearCache

namespace PartitionState

variable {m : PartitionState} {source : SourceId} {sequence : Sequence}

/-- What a first report of a source and a number makes of a partition. -/
def seed (m : PartitionState) (source : SourceId) (sequence : Sequence) : PartitionState :=
  (m.adoptSource source).seedSequence sequence

theorem seed_eq (hSequence : 0 ≤ sequence) :
    m.seed source sequence =
      if m.source = source ∧ sequence < m.latest then
        ⟨source, m.latest, max m.floor sequence, m.missed⟩
      else ⟨source, sequence, sequence, 0⟩ := by
  by_cases hSource : m.source = source
  · subst hSource
    rw [seed, adoptSource_self, seedSequence]
    by_cases hOlder : sequence < m.latest
    · rw [if_neg (Int.not_le.mpr hOlder), if_pos ⟨rfl, hOlder⟩]
    · rw [if_pos (Int.not_lt.mp hOlder), if_neg fun h => hOlder h.2]
  · have hNewer : (rotate source 0).latest ≤ sequence := hSequence
    rw [seed, adoptSource_of_ne hSource, seedSequence, if_pos hNewer, if_neg fun h => hSource h.1]
    rfl

theorem reaches_seed (m : PartitionState) (source : SourceId) (sequence : Sequence) :
    (m.seed source sequence).Reaches source sequence := by
  have hReached := (m.adoptSource source).reaches_seedSequence sequence
  rwa [source_adoptSource] at hReached

theorem seed_seed (hSequence : 0 ≤ sequence) :
    (m.seed source sequence).seed source sequence = m.seed source sequence := by
  rw [seed_eq hSequence, seed_eq hSequence]
  by_cases hOlder : m.source = source ∧ sequence < m.latest
  · rw [if_pos hOlder, if_pos ⟨rfl, hOlder.2⟩, max_assoc, max_self]
  · rw [if_neg hOlder, if_neg fun h => Int.lt_irrefl _ h.2]

/-- A report of the source that is tracked already takes nothing back. -/
theorem Sound.seed_mono (h : m.Sound) (sequence : Sequence) :
    m.latest ≤ (m.seed m.source sequence).latest ∧ m.floor ≤ (m.seed m.source sequence).floor := by
  rw [seed, adoptSource_self]
  exact (m.seedSequence_change sequence).mono h (m.reaches_seedSequence sequence).source.symm

end PartitionState

namespace MemberReport

variable {report : MemberReport} {reports reports' : List MemberReport} {name : String}
  {p : PartitionId} {source : SourceId} {sequence : Sequence}

/-- The report names a source of the partition, or tells a number of it under the name of a cache. -/
def Mentions (report : MemberReport) (name : String) (p : PartitionId) : Prop :=
  (∃ source, (p, source) ∈ report.sources) ∨ ∃ sequence, (p, sequence) ∈ report.named name

/-- The report names this source of the partition and tells this number of it under the name of a
cache, each exactly once and no other. -/
structure TellsOnce (report : MemberReport) (name : String) (p : PartitionId) (source : SourceId)
    (sequence : Sequence) : Prop where
  source : report.sources.filter (·.1 = p) = [(p, source)]
  sequence : (report.named name).filter (·.1 = p) = [(p, sequence)]

/-- No two reports mention the same partition, and one that mentions a partition tells its source and a
number that is not negative, each once. -/
structure EachOnce (reports : List MemberReport) (name : String) : Prop where
  once : ∀ report ∈ reports, ∀ p, report.Mentions name p →
    ∃ source sequence, report.TellsOnce name p source sequence ∧ 0 ≤ sequence
  apart : reports.Pairwise fun a b => ∀ p, a.Mentions name p → ¬b.Mentions name p

/-- The report without the numbers of caches of other names. -/
def under (report : MemberReport) (name : String) : MemberReport :=
  { report with sequences := report.sequences.filter (·.1 = name) }

theorem named_under (report : MemberReport) (name : String) :
    (report.under name).named name = report.named name := by
  simp [named, under]

theorem TellsOnce.mentions (h : report.TellsOnce name p source sequence) :
    report.Mentions name p := by
  have hSource : (p, source) ∈ report.sources.filter (·.1 = p) := by
    rw [h.source]
    exact List.mem_singleton_self _
  exact Or.inl ⟨source, List.mem_of_mem_filter hSource⟩

theorem TellsOnce.unique {source' : SourceId} {sequence' : Sequence}
    (h : report.TellsOnce name p source sequence) (h' : report.TellsOnce name p source' sequence') :
    source' = source ∧ sequence' = sequence := by
  have hSource := List.singleton_inj.mp (h'.source.symm.trans h.source)
  have hSequence := List.singleton_inj.mp (h'.sequence.symm.trans h.sequence)
  exact ⟨congrArg Prod.snd hSource, congrArg Prod.snd hSequence⟩

theorem EachOnce.sequence_nonneg (h : EachOnce reports name) (hReport : report ∈ reports)
    (hTold : report.TellsOnce name p source sequence) : 0 ≤ sequence := by
  obtain ⟨source', sequence', hTold', hNonneg⟩ := h.once report hReport p hTold.mentions
  rw [(hTold'.unique hTold).2]
  exact hNonneg

theorem EachOnce.cases (h : EachOnce reports name) (p : PartitionId) :
    (∃ report ∈ reports, ∃ source sequence, report.TellsOnce name p source sequence) ∨
      ∀ report ∈ reports, ¬report.Mentions name p := by
  by_cases hMentioned : ∃ report ∈ reports, report.Mentions name p
  · obtain ⟨report, hReport, hMentions⟩ := hMentioned
    obtain ⟨source, sequence, hTold, -⟩ := h.once report hReport p hMentions
    exact Or.inl ⟨report, hReport, source, sequence, hTold⟩
  · exact Or.inr fun report hReport hMentions => hMentioned ⟨report, hReport, hMentions⟩

theorem EachOnce.perm (h : EachOnce reports name) (hPerm : reports'.Perm reports) :
    EachOnce reports' name where
  once report hReport := h.once report (hPerm.mem_iff.mp hReport)
  apart := by
    apply (hPerm.pairwise_iff _).mpr h.apart
    intro a b hApart p hb ha
    exact hApart p ha hb

end MemberReport

namespace Tracker

variable {t : Tracker} {report : MemberReport} {name : String} {p : PartitionId}
  {source : SourceId} {sequence : Sequence}

/-- A tracker that operations have led to from nothing. -/
def Reached (t : Tracker) : Prop :=
  ∃ tolerance ops, t = (empty tolerance).run ops

theorem Reached.sound (h : t.Reached) : Sound t := by
  obtain ⟨tolerance, ops, rfl⟩ := h
  exact (sound_empty tolerance).run ops

theorem Sound.observeAll (h : Sound t) (positions : List Position) :
    Sound (t.observeAll positions).1 := by
  induction positions generalizing t with
  | nil => exact h
  | cons first rest ih =>
      have hNext : Sound (t.perform (.observe first)) := h.perform rfl
      rw [Tracker.observeAll]
      cases hSeen : t.observe first with
      | error fault => exact h
      | ok next =>
          rw [Tracker.perform, hSeen] at hNext
          exact ih hNext

theorem toldOf_eq_nil {α : Type} {told : List (PartitionId × α)} (h : ∀ a, (p, a) ∉ told) :
    toldOf p told = [] :=
  List.eq_nil_iff_forall_not_mem.mpr fun a hm => h a (mem_toldOf.mp hm)

theorem toldOf_of_filter {α : Type} {told : List (PartitionId × α)} {a : α}
    (h : told.filter (·.1 = p) = [(p, a)]) : toldOf p told = [a] := by
  rw [toldOf, h]
  rfl

theorem getElem?_seed_of_unmentioned (h : ¬report.Mentions name p) :
    (t.seed name report).partitions[p]? = t.partitions[p]? := by
  have hSources : toldOf p report.sources = [] := toldOf_eq_nil fun a hm => h (Or.inl ⟨a, hm⟩)
  have hNumbers : toldOf p (report.named name) = [] := toldOf_eq_nil fun a hm => h (Or.inr ⟨a, hm⟩)
  rw [seed_eq, getElem?_updateAll, if_pos hNumbers, getElem?_updateAll, if_pos hSources]

theorem getElem?_seed_of_told (h : report.TellsOnce name p source sequence) :
    (t.seed name report).partitions[p]? = some ((t.state p).seed source sequence) := by
  have hSources : toldOf p report.sources = [source] := toldOf_of_filter h.source
  have hNumbers : toldOf p (report.named name) = [sequence] := toldOf_of_filter h.sequence
  have hAdopted : (t.updateAll .adoptSource report.sources).partitions[p]? =
      some ((t.state p).adoptSource source) := by
    rw [getElem?_updateAll_of_told _ _ _ _ (by simp [hSources]), hSources]
    rfl
  rw [seed_eq, getElem?_updateAll_of_told _ _ _ _ (by simp [hNumbers]), hNumbers,
    state_of_known _ _ hAdopted]
  rfl

theorem tolerance_updateAll {α : Type} (update : PartitionState → α → PartitionState)
    (t : Tracker) (told : List (PartitionId × α)) :
    (t.updateAll update told).tolerance = t.tolerance := by
  induction told generalizing t with
  | nil => rfl
  | cons first rest ih => exact ih _

section Reports

variable {reports reports' : List MemberReport}

/-- Applies several first reports to the cache of this name, in order. -/
def seedAll (t : Tracker) (name : String) (reports : List MemberReport) : Tracker :=
  reports.foldl (fun t report => t.seed name report) t

theorem seedAll_append (t : Tracker) (name : String) (reports more : List MemberReport) :
    t.seedAll name (reports ++ more) = (t.seedAll name reports).seedAll name more :=
  List.foldl_append

theorem tolerance_seedAll (t : Tracker) (name : String) (reports : List MemberReport) :
    (t.seedAll name reports).tolerance = t.tolerance := by
  induction reports generalizing t with
  | nil => rfl
  | cons first rest ih =>
      rw [seedAll, List.foldl_cons, ← seedAll, ih, seed_eq, tolerance_updateAll, tolerance_updateAll]

/-- Two seeded trackers that know the same of every partition are the same. -/
theorem seedAll_eq_of_partitions
    (h : ∀ p : PartitionId,
      (t.seedAll name reports').partitions[p]? = (t.seedAll name reports).partitions[p]?) :
    t.seedAll name reports' = t.seedAll name reports := by
  refine eq_of_partitions ?_ h
  rw [tolerance_seedAll, tolerance_seedAll]

theorem getElem?_seedAll_of_unmentioned (h : ∀ report ∈ reports, ¬report.Mentions name p) :
    (t.seedAll name reports).partitions[p]? = t.partitions[p]? := by
  induction reports generalizing t with
  | nil => rfl
  | cons first rest ih =>
      rw [List.forall_mem_cons] at h
      exact (ih h.2).trans (getElem?_seed_of_unmentioned h.1)

/-- Only the one report that mentions a partition matters to it. -/
theorem getElem?_seedAll_of_told (h : MemberReport.EachOnce reports name) (hReport : report ∈ reports)
    (hTold : report.TellsOnce name p source sequence) :
    (t.seedAll name reports).partitions[p]? = some ((t.state p).seed source sequence) := by
  obtain ⟨before, after, rfl⟩ := List.append_of_mem hReport
  obtain ⟨-, hAfter, hBefore⟩ := List.pairwise_append.mp h.apart
  have hUntoldBefore : ∀ other ∈ before, ¬other.Mentions name p := fun other hm hMentions =>
    hBefore other hm report List.mem_cons_self p hMentions hTold.mentions
  have hUntoldAfter : ∀ other ∈ after, ¬other.Mentions name p := fun other hm =>
    (List.pairwise_cons.mp hAfter).1 other hm p hTold.mentions
  have hState : (t.seedAll name before).state p = t.state p := by
    rw [state, state, getElem?_seedAll_of_unmentioned hUntoldBefore]
  rw [seedAll_append, ← hState]
  exact (getElem?_seedAll_of_unmentioned hUntoldAfter).trans (getElem?_seed_of_told hTold)

theorem seedAll_perm (h : MemberReport.EachOnce reports name) (hPerm : reports'.Perm reports) :
    t.seedAll name reports' = t.seedAll name reports := by
  apply seedAll_eq_of_partitions
  intro p
  rcases h.cases p with ⟨report, hReport, source, sequence, hTold⟩ | hUntold
  · rw [getElem?_seedAll_of_told h hReport hTold,
      getElem?_seedAll_of_told (h.perm hPerm) (hPerm.mem_iff.mpr hReport) hTold]
  · rw [getElem?_seedAll_of_unmentioned hUntold]
    apply getElem?_seedAll_of_unmentioned
    intro report hReport
    exact hUntold report (hPerm.mem_iff.mp hReport)

theorem seedAll_again (h : MemberReport.EachOnce reports name) :
    (t.seedAll name reports).seedAll name reports = t.seedAll name reports := by
  rw [← seedAll_append]
  apply seedAll_eq_of_partitions
  intro p
  rw [seedAll_append]
  rcases h.cases p with ⟨report, hReport, source, sequence, hTold⟩ | hUntold
  · have hSeeded : (t.seedAll name reports).partitions[p]? = _ :=
      getElem?_seedAll_of_told h hReport hTold
    rw [getElem?_seedAll_of_told h hReport hTold, state_of_known _ _ hSeeded, hSeeded,
      PartitionState.seed_seed (h.sequence_nonneg hReport hTold)]
  · exact getElem?_seedAll_of_unmentioned hUntold

/-- The numbers told to caches of other names are not looked at. -/
theorem seedAll_under (t : Tracker) (name : String) (reports : List MemberReport) :
    t.seedAll name (reports.map (·.under name)) = t.seedAll name reports := by
  have hFirst : ∀ (t : Tracker) (report : MemberReport),
      t.seed name (report.under name) = t.seed name report := by
    intro t report
    rw [seed_eq, seed_eq, MemberReport.named_under]
    rfl
  simp only [seedAll, List.foldl_map, hFirst]

theorem Sound.seedAll_mono (hSound : t.Sound) (h : MemberReport.EachOnce reports name)
    (hSource : ((t.seedAll name reports).state p).source = (t.state p).source) :
    (t.state p).latest ≤ ((t.seedAll name reports).state p).latest ∧
      (t.state p).floor ≤ ((t.seedAll name reports).state p).floor := by
  rcases h.cases p with ⟨report, hReport, source, sequence, hTold⟩ | hUntold
  · have hSeeded := state_of_known _ _ (getElem?_seedAll_of_told (t := t) h hReport hTold)
    have hOne : source = (t.state p).source := by
      rw [← hSource, hSeeded]
      exact ((t.state p).reaches_seed source sequence).source.symm
    subst hOne
    rw [hSeeded]
    exact (hSound.state p).seed_mono sequence
  · have hSame : (t.seedAll name reports).state p = t.state p := by
      rw [Tracker.state, Tracker.state, getElem?_seedAll_of_unmentioned hUntold]
    rw [hSame]
    exact ⟨le_refl _, le_refl _⟩

end Reports

end Tracker

namespace Cache

variable {c : Cache}

/-- Events change nothing of a cache but its store, and keep its tracker sound. -/
theorem run_events (h : c.tracker.Sound) (events : List Event) :
    ∃ store, c.run (events.map .event) = c.withStore store ∧ store.tracker.Sound := by
  induction events generalizing c with
  | nil => exact ⟨c.store, rfl, h⟩
  | cons first rest ih =>
      obtain ⟨store, hNext, -, hSeen⟩ := c.onEvent_effect first
      have hObserved := h.observeAll (first.tells c.eventShape?)
      rw [hSeen] at hObserved
      obtain ⟨last, hRest, hSound⟩ := ih (c := c.withStore store) hObserved
      refine ⟨last, ?_, hSound⟩
      show (c.onEvent first).1.run (rest.map .event) = c.withStore last
      rw [hNext]
      exact hRest

/-- First reports respect what events have told before them. Of a partition that one report tells of, a
newer number or another source is taken as it is, an older number of the same source only raises the
floor, and in any case a stamp below the number or of another source is stale. While the source stays,
neither the latest number nor the floor goes down. What no report mentions, and what is told to caches
of other names, changes nothing; neither does the order of the reports, nor applying them again. -/
theorem seed_after_events (hReached : c.tracker.Reached) (events : List Event)
    {reports : List MemberReport} (hOnce : MemberReport.EachOnce reports c.name) :
    let before := c.run (events.map .event)
    let after := before.seed reports
    (∀ report ∈ reports, ∀ p source sequence, report.TellsOnce c.name p source sequence →
      let m := before.tracker.state p
      after.tracker.partitions[p]? = some
        (if m.source = source ∧ sequence < m.latest then
          ⟨source, m.latest, max m.floor sequence, m.missed⟩
        else ⟨source, sequence, sequence, 0⟩) ∧
      ∀ s : Position, s.partition = p → s.source ≠ source ∨ s.sequence < sequence →
        after.tracker.isStale s = true) ∧
    (∀ p, (after.tracker.state p).source = (before.tracker.state p).source →
      (before.tracker.state p).latest ≤ (after.tracker.state p).latest ∧
        (before.tracker.state p).floor ≤ (after.tracker.state p).floor) ∧
    (∀ p : PartitionId, (∀ report ∈ reports, ¬report.Mentions c.name p) →
      after.tracker.partitions[p]? = before.tracker.partitions[p]?) ∧
    before.seed (reports.map (·.under c.name)) = after ∧
    (∀ reports', reports'.Perm reports → before.seed reports' = after) ∧
    after.seed reports = after := by
  intro before
  obtain ⟨store, hRun, hStore⟩ := run_events hReached.sound events
  have hBefore : before = c.withStore store := hRun
  have hName : before.name = c.name := by
    rw [hBefore]
    rfl
  have hSound : before.tracker.Sound := by
    rw [hBefore]
    exact hStore
  -- From here on it does not matter how the cache came about.
  clear_value before
  rw [← hName] at hOnce ⊢
  intro after
  refine ⟨?_, ?_, ?_, ?_, ?_, ?_⟩
  · intro report hReport p source sequence hTold m
    have hSequence := hOnce.sequence_nonneg hReport hTold
    have hKnown : after.tracker.partitions[p]? = some (m.seed source sequence) :=
      Tracker.getElem?_seedAll_of_told hOnce hReport hTold
    refine ⟨?_, ?_⟩
    · rw [hKnown, PartitionState.seed_eq hSequence]
    · rintro s rfl hOutdated
      have hReaches : after.tracker.Reaches s.partition source sequence :=
        ⟨m.seed source sequence, hKnown, m.reaches_seed source sequence⟩
      exact hReaches.isStale hOutdated
  · intro p hSource
    exact hSound.seedAll_mono hOnce hSource
  · intro p hUntold
    exact Tracker.getElem?_seedAll_of_unmentioned hUntold
  · exact congrArg before.withTracker (before.tracker.seedAll_under before.name reports)
  · intro reports' hPerm
    exact congrArg before.withTracker (Tracker.seedAll_perm hOnce hPerm)
  · exact congrArg before.withTracker (Tracker.seedAll_again hOnce)

/-- Of partition 3 the events have told more than its member, of partition 4 another member names
another source, and a number told to another cache is not looked at. -/
theorem seed_after_events_of_two_members :
    let c := (Cache.create "orders" (.ofName "orders") .default).installSubscription
      ⟨"orders", "1", .repairable⟩
    let events : List Event :=
      [.single none ⟨3, 7, 10⟩, .single none ⟨4, 7, 5⟩, .single none ⟨3, 7, 30⟩]
    let reports : List MemberReport :=
      [⟨[(3, 7)], [("users", [(3, 90)]), ("orders", [(3, 20)])]⟩, ⟨[(4, 8)], [("orders", [(4, 2)])]⟩]
    let before := c.run (events.map .event)
    c.tracker.Reached ∧ MemberReport.EachOnce reports c.name ∧
      (before.seed reports).tracker.partitions[(3 : PartitionId)]? = some ⟨7, 30, 20, 19⟩ ∧
      (before.seed reports).tracker.isStale ⟨3, 7, 15⟩ = true ∧
      before.seed reports.reverse = before.seed reports := by
  intro c events reports before
  have hReached : c.tracker.Reached := ⟨10, [], by decide⟩
  have hThree : MemberReport.TellsOnce ⟨[(3, 7)], [("users", [(3, 90)]), ("orders", [(3, 20)])]⟩
      c.name 3 7 20 := ⟨by decide, by decide⟩
  have hFour : MemberReport.TellsOnce ⟨[(4, 8)], [("orders", [(4, 2)])]⟩ c.name 4 8 2 :=
    ⟨by decide, by decide⟩
  have hOnce : MemberReport.EachOnce reports c.name := by
    have hName : c.name = "orders" := rfl
    refine ⟨?_, ?_⟩
    · intro report hReport p hMentions
      rcases List.mem_pair.mp hReport with rfl | rfl
      · obtain rfl : p = 3 := by simpa [MemberReport.Mentions, MemberReport.named, hName] using hMentions
        exact ⟨7, 20, hThree, by decide⟩
      · obtain rfl : p = 4 := by simpa [MemberReport.Mentions, MemberReport.named, hName] using hMentions
        exact ⟨8, 2, hFour, by decide⟩
    · apply List.pairwise_pair.mpr
      intro p hFirst hSecond
      have hThird : p = 3 := by simpa [MemberReport.Mentions, MemberReport.named, hName] using hFirst
      have hFourth : p = 4 := by simpa [MemberReport.Mentions, MemberReport.named, hName] using hSecond
      exact absurd (hThird.symm.trans hFourth) (by decide)
  obtain ⟨hSeeded, -, -, -, hOrder, -⟩ := seed_after_events hReached events hOnce
  obtain ⟨hKnown, hStale⟩ := hSeeded _ List.mem_cons_self 3 7 20 hThree
  refine ⟨hReached, hOnce, ?_, hStale ⟨3, 7, 15⟩ rfl (Or.inr (by decide)), ?_⟩
  · rw [hKnown]
    decide
  · exact hOrder reports.reverse reports.reverse_perm

end Cache

end NearCache
