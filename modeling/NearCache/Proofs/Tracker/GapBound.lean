import Mathlib.Data.List.Chain
import NearCache.Proofs.Tracker.Run

/-!
The gap bound of one partition. While numbers arrive from the source that it tracks, in any order and
with repairs in between, the partition knows the highest number that arrived, and a repair raises the
floor exactly after a jump past more numbers than are tolerated.
-/

namespace NearCache

namespace Tracker

/-- What a partition hears of: a number that arrives from its source, or a repair. -/
inductive Signal where
  | arrival (sequence : Sequence)
  | repair
deriving DecidableEq

/-- The operation that a signal is. -/
def Signal.op (p : PartitionId) (source : SourceId) : Signal → Op
  | .arrival q => .observe ⟨p, source, q⟩
  | .repair => .repairGaps

/-- The tracker after a signal. -/
def hear (p : PartitionId) (source : SourceId) (t : Tracker) (signal : Signal) : Tracker :=
  t.perform (signal.op p source)

/-- The tracker after several signals, in order. -/
def heard (p : PartitionId) (source : SourceId) (t : Tracker) (signals : List Signal) : Tracker :=
  History.run (hear p source) t signals

/-- The numbers that arrived. -/
def arrivals (signals : List Signal) : List Sequence :=
  signals.filterMap fun
    | .arrival q => some q
    | .repair => none

/-- The highest of a number and all that arrived. -/
def top (latest : Sequence) (signals : List Signal) : Sequence :=
  (arrivals signals).foldl max latest

/-- At this step a number arrives past more than the tolerated numbers above the highest one before. -/
def Jumps (tolerance : Int) (latest : Sequence) (before : List (Tracker × Signal))
    (step : Tracker × Signal) : Prop :=
  ∃ q, step.2 = .arrival q ∧ top latest (before.map Prod.snd) + tolerance + 1 < q

/-- At this step a repair changes the floor of the partition. -/
def MovesFloor (p : PartitionId) (step : Tracker × Signal) : Prop :=
  step.2 = .repair ∧ (step.1.repairGaps.1.state p).floor ≠ (step.1.state p).floor

theorem top_concat_arrival (latest : Sequence) (signals : List Signal) (q : Sequence) :
    top latest (signals ++ [.arrival q]) = max (top latest signals) q := by
  simp [top, arrivals, List.filterMap_append, List.foldl_append]

theorem top_concat_repair (latest : Sequence) (signals : List Signal) :
    top latest (signals ++ [.repair]) = top latest signals := by
  simp [top, arrivals, List.filterMap_append]

theorem observe_arrival {m : PartitionState} (h : m.Sound) {q : Sequence}
    (hRange : q - m.latest ≤ maxSequence) :
    m.observe m.source q =
      .ok { m with latest := max m.latest q, missed := max m.missed (q - m.latest - 1) } := by
  have hMissed := h.missed_nonneg
  rw [PartitionState.observe, if_pos rfl, PartitionState.advance]
  split_ifs with hOld hFar
  · have hLatest : max m.latest q = m.latest := by lia
    have hRun : max m.missed (q - m.latest - 1) = m.missed := by lia
    rw [hLatest, hRun]
  · exact absurd hFar (by lia)
  · have hLatest : max m.latest q = q := by lia
    rw [hLatest]
    rfl

section Step

variable {t : Tracker} {p : PartitionId} {m : PartitionState}

theorem known_hear_arrival (hKnown : t.partitions[p]? = some m) (h : m.Sound) {q : Sequence}
    (hRange : q - m.latest ≤ maxSequence) :
    (hear p m.source t (.arrival q)).partitions[p]? =
      some { m with latest := max m.latest q, missed := max m.missed (q - m.latest - 1) } := by
  simp only [hear, Signal.op, perform, observe, state_of_known t p hKnown, observe_arrival h hRange]
  exact (getElem?_setState t p p _).trans (if_pos rfl)

theorem known_repairGaps (hKnown : t.partitions[p]? = some m) :
    t.repairGaps.1.partitions[p]? = some (m.repairGap t.tolerance) := by
  rw [getElem?_repairGaps, hKnown]
  rfl

/-- A repair changes the floor exactly if more was missed than is tolerated. -/
theorem movesFloor_iff (hTolerance : 0 ≤ t.tolerance) (hKnown : t.partitions[p]? = some m)
    (h : m.Sound) : MovesFloor p (t, .repair) ↔ t.tolerance < m.missed := by
  unfold MovesFloor
  rw [state_of_known _ p (known_repairGaps hKnown), state_of_known t p hKnown]
  rcases lt_or_ge t.tolerance m.missed with hMissed | hFew
  · have hFloor := h.floor_lt (lt_of_le_of_lt hTolerance hMissed)
    rw [PartitionState.repairGap_of_lt hMissed]
    exact iff_of_true ⟨rfl, ne_of_gt hFloor⟩ hMissed
  · rw [PartitionState.repairGap_of_le hFew]
    exact iff_of_false (fun hMoves => hMoves.2 rfl) (not_lt_of_ge hFew)

end Step

theorem le_top (latest : Sequence) (signals : List Signal) : latest ≤ top latest signals := by
  induction signals using List.reverseRecOn with
  | nil => exact le_refl _
  | append_singleton signals signal ih =>
      cases signal with
      | arrival q =>
          rw [top_concat_arrival]
          exact le_trans ih (le_max_left _ _)
      | repair =>
          rw [top_concat_repair]
          exact ih

section Run

variable {t : Tracker} {p : PartitionId} {m : PartitionState} {signals : List Signal}

theorem heard_concat (source : SourceId) (signals : List Signal) (signal : Signal) :
    heard p source t (signals ++ [signal]) = hear p source (heard p source t signals) signal :=
  History.run_concat ..

theorem tolerance_heard (source : SourceId) (signals : List Signal) :
    (heard p source t signals).tolerance = t.tolerance := by
  induction signals using List.reverseRecOn with
  | nil => rfl
  | append_singleton signals signal ih =>
      rw [heard_concat, hear, tolerance_perform _ (by cases signal <;> rfl), ih]

/-- The partition keeps its source and knows the highest number that arrived. -/
theorem known_run (hKnown : t.partitions[p]? = some m) (hSound : m.Sound) (hLatest : 0 ≤ m.latest)
    (hRange : ∀ q, .arrival q ∈ signals → q ≤ maxSequence) :
    ∃ m', (heard p m.source t signals).partitions[p]? = some m' ∧
      m'.source = m.source ∧ m'.latest = top m.latest signals ∧ m'.Sound := by
  induction signals using List.reverseRecOn with
  | nil => exact ⟨m, hKnown, rfl, rfl, hSound⟩
  | append_singleton signals signal ih =>
      obtain ⟨m', hKnown', hSource, hTop, hSound'⟩ :=
        ih fun q hm => hRange q (List.mem_append_left _ hm)
      rw [heard_concat, ← hSource]
      rw [← hSource] at hKnown'
      cases signal with
      | arrival q =>
          have hLast := hRange q (List.mem_append_right _ (List.mem_singleton_self _))
          have hLe := le_top m.latest signals
          refine ⟨_, known_hear_arrival hKnown' hSound' (by lia), rfl, ?_, ?_⟩
          · rw [top_concat_arrival, ← hTop]
          · exact (PartitionState.observe_change
              (observe_arrival hSound' (by lia))).sound hSound'
      | repair =>
          refine ⟨_, known_repairGaps hKnown', PartitionState.repairGap_source m' _, ?_, ?_⟩
          · rw [top_concat_repair, ← hTop, PartitionState.repairGap_latest]
          · exact (PartitionState.repairGap_change m' _).sound hSound'

/-- More is missed than tolerated exactly if a number jumped too far since a repair last changed the
floor. -/
theorem missed_iff_jumped (hTolerance : 0 ≤ t.tolerance) (hKnown : t.partitions[p]? = some m)
    (hSound : m.Sound) (hLatest : 0 ≤ m.latest) (hMissed : m.missed = 0)
    (hRange : ∀ q, .arrival q ∈ signals → q ≤ maxSequence) :
    t.tolerance < ((heard p m.source t signals).state p).missed ↔
      History.Since (Jumps t.tolerance m.latest) (MovesFloor p)
        (History.steps (hear p m.source) t signals) := by
  refine History.run_iff_since (P := fun t' : Tracker => t.tolerance < (t'.state p).missed) ?_ ?_
  · rw [state_of_known t p hKnown, hMissed]
    exact not_lt_of_ge hTolerance
  · intro before signal hPrefix
    have hRange' : ∀ q, .arrival q ∈ before ++ [signal] → q ≤ maxSequence :=
      fun q hm => hRange q (hPrefix.subset hm)
    obtain ⟨m', hKnown', hSource, hTop, hSound'⟩ :=
      known_run hKnown hSound hLatest fun q hm => hRange' q (List.mem_append_left _ hm)
    have hSame := tolerance_heard (t := t) (p := p) m.source before
    have hNow := state_of_known _ p hKnown'
    change t.tolerance < ((hear p m.source (heard p m.source t before) signal).state p).missed ↔
      Jumps t.tolerance m.latest _ (heard p m.source t before, signal) ∨
        (t.tolerance < ((heard p m.source t before).state p).missed ∧
          ¬MovesFloor p (heard p m.source t before, signal))
    rw [hNow, Jumps, History.steps_calls, ← hTop]
    cases signal with
    | arrival q =>
        have hLast := hRange' q (List.mem_append_right _ (List.mem_singleton_self _))
        have hLe := le_top m.latest before
        have hNext := known_hear_arrival hKnown' hSound' (q := q) (by lia)
        rw [hSource] at hNext
        rw [state_of_known _ p hNext]
        simp only [MovesFloor, Signal.arrival.injEq, exists_eq_left', reduceCtorEq, false_and,
          not_false_eq_true, and_true]
        lia
    | repair =>
        have hNext : (hear p m.source (heard p m.source t before) .repair).state p = _ :=
          state_of_known _ p (known_repairGaps hKnown')
        rw [movesFloor_iff (hSame ▸ hTolerance) hKnown' hSound', hNext, hSame]
        simp only [reduceCtorEq, false_and, exists_false, false_or, not_lt]
        rcases lt_or_ge t.tolerance m'.missed with hMany | hFew
        · rw [PartitionState.repairGap_of_lt hMany]
          lia
        · rw [PartitionState.repairGap_of_le hFew]
          lia

/-- A repair changes the floor exactly if a number jumped too far since one last did. -/
theorem movesFloor_iff_jumped (hTolerance : 0 ≤ t.tolerance) (hKnown : t.partitions[p]? = some m)
    (hSound : m.Sound) (hLatest : 0 ≤ m.latest) (hMissed : m.missed = 0)
    (hRange : ∀ q, .arrival q ∈ signals → q ≤ maxSequence) :
    MovesFloor p (heard p m.source t signals, .repair) ↔
      History.Since (Jumps t.tolerance m.latest) (MovesFloor p)
        (History.steps (hear p m.source) t signals) := by
  obtain ⟨m', hKnown', -, -, hSound'⟩ := known_run hKnown hSound hLatest hRange
  have hSame := tolerance_heard (t := t) (p := p) m.source signals
  rw [movesFloor_iff (hSame ▸ hTolerance) hKnown' hSound', hSame, ← state_of_known _ p hKnown']
  exact missed_iff_jumped hTolerance hKnown hSound hLatest hMissed hRange

/-- As long as no number jumps too far, no repair changes the floor. -/
theorem floor_of_no_jump (hTolerance : 0 ≤ t.tolerance) (hKnown : t.partitions[p]? = some m)
    (hSound : m.Sound) (hLatest : 0 ≤ m.latest) (hMissed : m.missed = 0)
    (hRange : ∀ q, .arrival q ∈ signals → q ≤ maxSequence)
    (hSmall : ∀ before q after, signals = before ++ .arrival q :: after →
      q ≤ top m.latest before + t.tolerance + 1) :
    ((heard p m.source t signals).state p).floor = m.floor := by
  induction signals using List.reverseRecOn with
  | nil =>
      exact congrArg PartitionState.floor (state_of_known t p hKnown)
  | append_singleton signals signal ih =>
      have hRange' : ∀ q, .arrival q ∈ signals → q ≤ maxSequence :=
        fun q hm => hRange q (List.mem_append_left _ hm)
      have hSmall' : ∀ before q after, signals = before ++ .arrival q :: after →
          q ≤ top m.latest before + t.tolerance + 1 := by
        intro before q after hEq
        exact hSmall before q (after ++ [signal]) (by rw [hEq, List.append_assoc]; rfl)
      obtain ⟨m', hKnown', hSource, hTop, hSound'⟩ := known_run hKnown hSound hLatest hRange'
      rw [← ih hRange' hSmall', heard_concat, state_of_known _ p hKnown']
      cases signal with
      | arrival q =>
          have hLast := hRange q (List.mem_append_right _ (List.mem_singleton_self _))
          have hLe := le_top m.latest signals
          have hNext := known_hear_arrival hKnown' hSound' (q := q) (by lia)
          rw [hSource] at hNext
          rw [state_of_known _ p hNext]
      | repair =>
          have hFew : ¬t.tolerance < m'.missed := by
            rw [← state_of_known _ p hKnown',
              missed_iff_jumped hTolerance hKnown hSound hLatest hMissed hRange']
            rintro ⟨before, step, after, hEq, ⟨q, hCall, hJump⟩, -⟩
            have hSplit := congrArg (List.map Prod.snd) hEq
            rw [History.steps_calls, List.map_append, List.map_cons, hCall] at hSplit
            exact absurd hJump (not_lt_of_ge (hSmall' _ q _ hSplit))
          have hNext := known_repairGaps hKnown'
          rw [tolerance_heard, PartitionState.repairGap_of_le (not_lt.mp hFew)] at hNext
          exact congrArg PartitionState.floor (state_of_known _ p hNext)

/-- A repair that changes the floor raises it to the highest number that arrived. -/
theorem known_of_movesFloor (hTolerance : 0 ≤ t.tolerance) (hKnown : t.partitions[p]? = some m)
    (hSound : m.Sound) (hLatest : 0 ≤ m.latest)
    (hRange : ∀ q, .arrival q ∈ signals → q ≤ maxSequence)
    (hMoves : MovesFloor p (heard p m.source t signals, .repair)) :
    ∃ m', (heard p m.source t (signals ++ [.repair])).partitions[p]? = some m' ∧
      m'.floor = top m.latest signals := by
  obtain ⟨m', hKnown', -, hTop, hSound'⟩ := known_run hKnown hSound hLatest hRange
  have hSame := tolerance_heard (t := t) (p := p) m.source signals
  rw [movesFloor_iff (hSame ▸ hTolerance) hKnown' hSound'] at hMoves
  rw [heard_concat]
  refine ⟨_, known_repairGaps hKnown', ?_⟩
  rw [PartitionState.repairGap_of_lt hMoves]
  exact hTop

/-- Until the next repair, a number that jumped too far is not forgotten. -/
theorem since_of_jump {before between : List Signal} {q : Sequence} {latest : Sequence}
    {source : SourceId} (hSplit : signals = before ++ .arrival q :: between)
    (hNoRepair : .repair ∉ between) (hJump : top latest before + t.tolerance + 1 < q) :
    History.Since (Jumps t.tolerance latest) (MovesFloor p)
      (History.steps (hear p source) t signals) := by
  rw [hSplit, History.steps_append]
  refine ⟨_, _, _, rfl, ⟨q, rfl, ?_⟩, ?_⟩
  · rw [History.steps_calls]
    exact hJump
  · intro later hm hMoves
    exact hNoRepair (hMoves.1 ▸ History.call_mem_of_mem_steps hm)

end Run

/-- In a stream that goes up by small gaps only, no number jumps too far. -/
theorem le_of_isChain {tolerance : Int} {latest : Sequence} {signals before after : List Signal}
    {q : Sequence}
    (hChain : (latest :: arrivals signals).IsChain fun a b => a < b ∧ b ≤ a + tolerance + 1)
    (hSplit : signals = before ++ .arrival q :: after) : q ≤ top latest before + tolerance + 1 := by
  subst hSplit
  induction before generalizing latest with
  | nil =>
      rw [List.nil_append, arrivals, List.filterMap_cons, List.isChain_cons_cons] at hChain
      exact hChain.1.2
  | cons first rest ih =>
      cases first with
      | arrival a =>
          rw [List.cons_append, arrivals, List.filterMap_cons, List.isChain_cons_cons] at hChain
          have hTop : top latest (.arrival a :: rest) = top a rest := by
            change top (max latest a) rest = top a rest
            rw [max_eq_right (le_of_lt hChain.1.1)]
          rw [hTop]
          exact ih hChain.2
      | repair => exact ih hChain

/-- The gap bound. The partition knows the highest number that arrived. A repair changes its floor
exactly if a number has jumped too far since a repair last did so, and then raises it to the highest
number; an arrival never changes it. So a stream that goes up by small gaps makes no stamp stale, and
a single larger gap makes all stamps below the highest number stale at the next repair. -/
theorem gap_bound (t : Tracker) (p : PartitionId) (source : SourceId) (latest floor : Sequence)
    (signals : List Signal) (hTolerance : 0 ≤ t.tolerance)
    (hKnown : t.partitions[p]? = some ⟨source, latest, floor, 0⟩) (hLatest : 0 ≤ latest)
    (hFloor : floor ≤ latest) (hRange : ∀ q, .arrival q ∈ signals → q ≤ maxSequence) :
    ((heard p source t signals).state p).latest = top latest signals ∧
    (MovesFloor p (heard p source t signals, .repair) ↔
      History.Since (Jumps t.tolerance latest) (MovesFloor p)
        (History.steps (hear p source) t signals)) ∧
    (MovesFloor p (heard p source t signals, .repair) →
      ((heard p source t (signals ++ [.repair])).state p).floor = top latest signals) ∧
    (∀ q ≤ maxSequence, ((heard p source t (signals ++ [.arrival q])).state p).floor =
      ((heard p source t signals).state p).floor) ∧
    ((latest :: arrivals signals).IsChain (fun a b => a < b ∧ b ≤ a + t.tolerance + 1) →
      ∀ s : Position, s.partition = p → (heard p source t signals).isStale s = t.isStale s) ∧
    (∀ before q between, signals = before ++ .arrival q :: between → .repair ∉ between →
      top latest before + t.tolerance + 1 < q → ∀ x < top latest signals,
      (heard p source t (signals ++ [.repair])).isStale ⟨p, source, x⟩ = true) := by
  have hSound : PartitionState.Sound ⟨source, latest, floor, 0⟩ :=
    ⟨hFloor, le_refl _, fun h => absurd h (lt_irrefl _)⟩
  obtain ⟨m, hNow, hSource, hTop, hSound'⟩ := known_run hKnown hSound hLatest hRange
  have hState := state_of_known _ p hNow
  have hMoves := movesFloor_iff_jumped hTolerance hKnown hSound hLatest rfl hRange
  refine ⟨hState ▸ hTop, hMoves, ?_, ?_, ?_, ?_⟩
  · intro hChanged
    obtain ⟨m', hRepaired, hRaised⟩ :=
      known_of_movesFloor hTolerance hKnown hSound hLatest hRange hChanged
    rw [state_of_known _ p hRepaired, hRaised]
  · intro q hLast
    have hLe := le_top latest signals
    have hNext := known_hear_arrival hNow hSound' (q := q) (by lia)
    rw [hSource] at hNext
    rw [heard_concat, hState, state_of_known _ p hNext]
  · intro hChain s hPartition
    have hSteady := floor_of_no_jump hTolerance hKnown hSound hLatest rfl hRange
      fun before q after hSplit => le_of_isChain hChain hSplit
    rw [hState] at hSteady
    subst hPartition
    rw [Bool.eq_iff_iff, isStale_of_known hNow, isStale_of_known hKnown, hSource, hSteady]
  · intro before q between hSplit hNoRepair hJump x hBelow
    have hChanged := hMoves.mpr (since_of_jump hSplit hNoRepair hJump)
    obtain ⟨m', hRepaired, hRaised⟩ :=
      known_of_movesFloor hTolerance hKnown hSound hLatest hRange hChanged
    rw [isStale_of_known hRepaired, hRaised]
    exact Or.inr hBelow

/-- Two small gaps pass unnoticed; the jump from 6 to 9 then makes a stamp at 8 stale. -/
theorem gap_bound_after_jump :
    let t := (Tracker.empty 1).setState 3 ⟨7, 4, 0, 0⟩
    let signals : List Signal := [.arrival 6, .arrival 5, .repair, .arrival 9, .arrival 8]
    0 ≤ t.tolerance ∧ t.partitions[(3 : PartitionId)]? = some ⟨7, 4, 0, 0⟩ ∧
      (∀ q, .arrival q ∈ signals → q ≤ maxSequence) ∧
      (heard 3 7 t (signals ++ [.repair])).isStale ⟨3, 7, 8⟩ = true := by
  intro t signals
  have hTolerance : 0 ≤ t.tolerance := by decide
  have hKnown : t.partitions[(3 : PartitionId)]? = some ⟨7, 4, 0, 0⟩ := by decide
  have hRange : ∀ q, .arrival q ∈ signals → q ≤ maxSequence := by
    intro q hm
    have hSmall : q ≤ 9 := by
      simp only [signals, List.mem_cons, Signal.arrival.injEq, reduceCtorEq, List.not_mem_nil] at hm
      lia
    exact le_trans hSmall (by decide)
  refine ⟨hTolerance, hKnown, hRange, ?_⟩
  exact (gap_bound t 3 7 4 0 signals hTolerance hKnown (by decide) (by decide) hRange).2.2.2.2.2
    [.arrival 6, .arrival 5, .repair] 9 [.arrival 8] rfl (by decide) (by decide) 8 (by decide)

end Tracker

end NearCache
