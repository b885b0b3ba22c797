import Mathlib.Data.List.MinMax
import NearCache.Proofs.Cache.Redelivery
import NearCache.Proofs.Reconcile.Seeding
import NearCache.Proofs.Tracker.Independence

/-!
The range of the numbers that a tracker keeps. As long as no negative number is told, nothing known of
a partition is negative or lies beyond what was told of it, and no distance between two numbers is too
large. Once a negative number was told, a distance can be too large; the call that finds it so changes
nothing.
-/

namespace NearCache

namespace PartitionState

variable {m m' : PartitionState} {source : SourceId} {next bound : Sequence} {reported : Bool}

/-- All numbers lie between zero and a bound, and no more is missed than the latest number counts. -/
structure Within (m : PartitionState) (bound : Sequence) : Prop where
  latest : 0 ≤ m.latest ∧ m.latest ≤ bound
  floor : 0 ≤ m.floor ∧ m.floor ≤ bound
  missed : 0 ≤ m.missed ∧ m.missed ≤ bound
  missed_le : m.missed ≤ m.latest

/-- All numbers lie between zero and the latest one. -/
structure Grounded (m : PartitionState) : Prop extends m.Sound where
  floor_nonneg : 0 ≤ m.floor
  missed_le : m.missed ≤ m.latest

theorem grounded_initial : initial.Grounded :=
  ⟨sound_initial, le_refl _, le_refl _⟩

theorem Grounded.latest_nonneg (h : m.Grounded) : 0 ≤ m.latest :=
  le_trans h.floor_nonneg h.floor_le

theorem Grounded.within (h : m.Grounded) (hLatest : m.latest ≤ bound) : m.Within bound where
  latest := ⟨h.latest_nonneg, hLatest⟩
  floor := ⟨h.floor_nonneg, le_trans h.floor_le hLatest⟩
  missed := ⟨h.missed_nonneg, le_trans h.missed_le hLatest⟩
  missed_le := h.missed_le

/-- The sign of the latest number is all that a change can get wrong. -/
theorem Change.grounded (change : Change m m') (h : m.Grounded) (hLatest : 0 ≤ m'.latest) :
    m'.Grounded := by
  have hSound := change.sound h.toSound
  have hMissed := h.missed_le
  cases change with
  | stay => exact h
  | rotate source sequence hOther => exact ⟨hSound, hLatest, hLatest⟩
  | advance next reported hNewer =>
      have hSkipped := skipped_bounds reported hNewer
      have hOld := h.latest_nonneg
      exact ⟨hSound, h.floor_nonneg, by lia⟩
  | repair => exact ⟨hSound, hLatest, hLatest⟩
  | seedNewer sequence hNewer => exact ⟨hSound, hLatest, hLatest⟩
  | seedOlder sequence hOlder =>
      exact ⟨hSound, le_trans h.floor_nonneg (le_max_left _ _), hMissed⟩

theorem advance_eq_error_iff {fault : Fault} :
    m.advance next reported = .error fault ↔
      fault = .subtractOverflow ∧ maxSequence < next - m.latest := by
  have hMax : (0 : Int) ≤ maxSequence := by decide
  unfold advance
  split_ifs with hOld hFar
  · exact iff_of_false (by simp) fun h => by lia
  · rw [Except.error.injEq]
    exact ⟨fun h => ⟨h.symm, hFar⟩, fun h => h.1.symm⟩
  · exact iff_of_false (by simp) fun h => hFar h.2

theorem observe_eq_error_iff {fault : Fault} :
    m.observe source next = .error fault ↔
      fault = .subtractOverflow ∧ m.source = source ∧ maxSequence < next - m.latest := by
  unfold observe
  split_ifs with hSource
  · rw [advance_eq_error_iff]
    tauto
  · exact iff_of_false (by simp) fun h => hSource h.2.1

/-- Among numbers of 64 bits, a distance is too large exactly if the subtraction that yields it
overflows. -/
theorem advance_eq_error_iff_ssubOverflow {latest next : Int64} (hLatest : m.latest = latest.toInt) :
    m.advance next.toInt reported = .error .subtractOverflow ↔
      latest < next ∧ next.toBitVec.ssubOverflow latest.toBitVec = true := by
  rw [advance_eq_error_iff, hLatest, Int64.lt_iff_toInt_lt]
  have hLow := Int64.le_toInt next
  have hHigh := Int64.toInt_lt latest
  simp only [BitVec.ssubOverflow, Int64.toInt_toBitVec, maxSequence, true_and, Bool.or_eq_true,
    decide_eq_true_eq]
  lia

theorem observe_latest (h : m.observe source next = .ok m') :
    m'.latest = m.latest ∨ m'.latest = next := by
  unfold observe at h
  split_ifs at h
  · rw [advance_latest h]
    exact max_choice _ _
  · cases h
    exact Or.inr rfl

theorem adoptSource_latest (m : PartitionState) (source : SourceId) :
    (m.adoptSource source).latest = m.latest ∨ (m.adoptSource source).latest = 0 := by
  unfold adoptSource
  split_ifs
  · exact Or.inl rfl
  · exact Or.inr rfl

theorem seedSequence_latest (m : PartitionState) (sequence : Sequence) :
    (m.seedSequence sequence).latest = m.latest ∨ (m.seedSequence sequence).latest = sequence := by
  unfold seedSequence
  split_ifs
  · exact Or.inr rfl
  · exact Or.inl rfl

end PartitionState

namespace Tracker

/-- The numbers that an operation tells, each with its partition. -/
def Op.told : Op → List (PartitionId × Sequence)
  | .observe s => [(s.partition, s.sequence)]
  | .seedSequences sequences => sequences
  | .repairSequence p sequence _ => [(p, sequence)]
  | .touch _ | .stamp _ | .repairGaps | .seedSources _ | .repairSource _ _ | .reset => []

theorem Op.told_split (op : Op) : op.split.flatMap told = op.told := by
  cases op with
  | seedSources sources => simp [split, told, List.flatMap_map]
  | seedSequences sequences => simp [split, told, List.flatMap_map]
  | _ => rfl

/-- The latest number after a single operation is the one before, zero, or one that the operation
tells. -/
theorem Op.latest_act {op : Op} (hSingle : op.split = [op]) {p : PartitionId}
    (hOwn : op.concerns p = true) {tolerance : Int} {known : Option PartitionState}
    {m : PartitionState} (h : op.act tolerance known = some m) :
    m.latest = (known.getD .initial).latest ∨ m.latest = 0 ∨ (p, m.latest) ∈ op.told := by
  cases op with
  | touch q =>
      cases h
      exact Or.inl rfl
  | stamp q =>
      cases h
      exact Or.inl rfl
  | observe s =>
      have hp : s.partition = p := of_decide_eq_true hOwn
      rcases attempt_cases known _ with hSame | ⟨m', hSeen, hNext⟩
      · have hKnown : known = some m := hSame.symm.trans h
        rw [hKnown]
        exact Or.inl rfl
      · cases hNext.symm.trans h
        rcases PartitionState.observe_latest hSeen with hSame | hTold
        · exact Or.inl hSame
        · exact Or.inr (Or.inr (by simp [told, hp, hTold]))
  | repairGaps =>
      obtain ⟨before, rfl, rfl⟩ := Option.map_eq_some_iff.mp h
      exact Or.inl (before.repairGap_latest tolerance)
  | seedSources sources =>
      obtain ⟨named, rfl, -⟩ := List.map_eq_singleton_iff.mp hSingle
      cases h
      exact (PartitionState.adoptSource_latest _ named.2).imp_right Or.inl
  | seedSequences sequences =>
      obtain ⟨named, rfl, -⟩ := List.map_eq_singleton_iff.mp hSingle
      have hp : named.1 = p := by simpa [concerns] using hOwn
      cases h
      refine (PartitionState.seedSequence_latest _ named.2).imp_right fun hTold => Or.inr ?_
      rw [hTold, ← hp]
      exact List.mem_singleton_self named
  | repairSource q source =>
      cases h
      exact (PartitionState.adoptSource_latest _ source).imp_right Or.inl
  | repairSequence q sequence reported =>
      have hp : q = p := of_decide_eq_true hOwn
      rcases attempt_cases known _ with hSame | ⟨m', hRaised, hNext⟩
      · have hKnown : known = some m := hSame.symm.trans h
        rw [hKnown]
        exact Or.inl rfl
      · cases hNext.symm.trans h
        rw [PartitionState.advance_latest hRaised]
        rcases max_choice (known.getD .initial).latest sequence with hSame | hTold
        · exact Or.inl hSame
        · exact Or.inr (Or.inr (by simp [told, hp, hTold]))
  | reset => exact absurd h (by simp [act])

/-- All that is known of a partition lies between zero and its latest number, and that is zero or was
told. -/
def Backed (told : List (PartitionId × Sequence)) (t : Tracker) : Prop :=
  ∀ (p : PartitionId) (m : PartitionState), t.partitions[p]? = some m →
    m.Grounded ∧ (m.latest = 0 ∨ (p, m.latest) ∈ told)

section Backed

variable {t : Tracker} {told : List (PartitionId × Sequence)}

theorem backed_empty (tolerance : Int) : Backed told (.empty tolerance) := by
  intro p m h
  simp [empty] at h

theorem Backed.state (h : Backed told t) (p : PartitionId) :
    (t.state p).Grounded ∧ ((t.state p).latest = 0 ∨ (p, (t.state p).latest) ∈ told) := by
  unfold Tracker.state
  cases hKnown : t.partitions[p]? with
  | none => exact ⟨PartitionState.grounded_initial, Or.inl rfl⟩
  | some m => exact h p m hKnown

theorem Backed.nonnegative (h : Backed told t) : t.Nonnegative :=
  fun p m hKnown => (h p m hKnown).1.latest_nonneg

theorem Backed.mono {more : List (PartitionId × Sequence)} (h : Backed told t)
    (hMore : told ⊆ more) : Backed more t :=
  fun p m hKnown => ⟨(h p m hKnown).1, (h p m hKnown).2.imp_right fun hTold => hMore hTold⟩

theorem Backed.perform {op : Op} (h : Backed told t) (hSingle : op.split = [op])
    (hOp : op.told ⊆ told) (hNonneg : ∀ n ∈ told, 0 ≤ n.2) : Backed told (t.perform op) := by
  intro p m hKnown
  have hMoved := getElem?_perform t p hSingle
  rw [hKnown] at hMoved
  split_ifs at hMoved with hOwn
  · obtain ⟨hBefore, hBacked⟩ := h.state p
    have hLatest : m.latest = 0 ∨ (p, m.latest) ∈ told := by
      rcases Op.latest_act hSingle hOwn hMoved.symm with hSame | hZero | hTold
      · have hState : m.latest = (t.state p).latest := hSame
        rwa [hState]
      · exact Or.inl hZero
      · exact Or.inr (hOp hTold)
    have hSign : 0 ≤ m.latest := by
      rcases hLatest with hZero | hTold
      · exact le_of_eq hZero.symm
      · exact hNonneg _ hTold
    by_cases hReset : op = .reset
    · subst hReset
      exact absurd hMoved (by simp [Op.act])
    · rcases Op.act_change hSingle hReset t.tolerance t.partitions[p]? with
        hSame | ⟨m', hNext, change⟩
      · exact h p m (hMoved.trans hSame).symm
      · cases hMoved.trans hNext
        exact ⟨change.grounded hBefore hSign, hLatest⟩
  · exact h p m hMoved.symm

theorem Backed.run {ops : List Op} (h : Backed told t) (hOps : ops.flatMap Op.told ⊆ told)
    (hNonneg : ∀ n ∈ told, 0 ≤ n.2) : Backed told (t.run ops) := by
  refine run_induction (fun t' op hm hSingle hBacked => ?_) h
  refine hBacked.perform hSingle (fun n hn => hOps ?_) hNonneg
  obtain ⟨whole, hWhole, hPart⟩ := List.mem_flatMap.mp hm
  have hTold : n ∈ whole.split.flatMap Op.told := List.mem_flatMap.mpr ⟨op, hPart, hn⟩
  rw [Op.told_split] at hTold
  exact List.mem_flatMap.mpr ⟨whole, hWhole, hTold⟩

end Backed

section Faults

variable {t t' : Tracker} {p : PartitionId} {fault : Fault}

theorem observe_eq_error_iff {s : Position} :
    t.observe s = .error fault ↔
      fault = .subtractOverflow ∧ (t.state s.partition).source = s.source ∧
        maxSequence < s.sequence - (t.state s.partition).latest := by
  have hSame : t.observe s = .error fault ↔
      (t.state s.partition).observe s.source s.sequence = .error fault := by
    rw [observe]
    cases (t.state s.partition).observe s.source s.sequence <;> simp [Except.map]
  exact hSame.trans PartitionState.observe_eq_error_iff

theorem repairSequence_eq_error_iff {sequence : Sequence} {reported : Bool} :
    t.repairSequence p sequence reported = .error fault ↔
      fault = .subtractOverflow ∧ maxSequence < sequence - (t.state p).latest := by
  have hSame : t.repairSequence p sequence reported = .error fault ↔
      (t.state p).advance sequence reported = .error fault := by
    rw [repairSequence]
    cases (t.state p).advance sequence reported <;> simp [Except.map]
  exact hSame.trans PartitionState.advance_eq_error_iff

/-- From a negative number only is a distance too large, and so only in a partition that is known. -/
theorem touch_of_distance {sequence : Sequence} (hRange : sequence ≤ maxSequence)
    (hFar : maxSequence < sequence - (t.state p).latest) : t.touch p = t := by
  refine eq_of_partitions rfl fun q => ?_
  rw [getElem?_touch]
  split_ifs with hOwn
  · subst hOwn
    cases hKnown : t.partitions[p]? with
    | some m => rw [state_of_known t p hKnown]
    | none =>
        have hInitial : (t.state p).latest = 0 := by rw [state, hKnown]; rfl
        rw [hInitial] at hFar
        exact absurd hRange (by lia)
  · rfl

/-- An operation that tells numbers in range is answered, unless something known is negative. -/
theorem answer_ok {op : Op} (hTracker : t.Nonnegative) (hRange : ∀ n ∈ op.told, n.2 ≤ maxSequence) :
    ∃ answer, t.answer op = .ok answer := by
  cases op with
  | observe s =>
      have hLatest := hTracker.state s.partition
      have hMax : s.sequence ≤ maxSequence := hRange _ (List.mem_singleton_self _)
      cases hSeen : t.observe s with
      | ok next => exact ⟨.done, by rw [answer, hSeen]; rfl⟩
      | error fault => exact absurd (observe_eq_error_iff.mp hSeen).2.2 (by lia)
  | repairSequence q sequence reported =>
      have hLatest := hTracker.state q
      have hMax : sequence ≤ maxSequence := hRange _ (List.mem_singleton_self _)
      cases hRaised : t.repairSequence q sequence reported with
      | ok next => exact ⟨.verdict next.2, by rw [answer, hRaised]; rfl⟩
      | error fault => exact absurd (repairSequence_eq_error_iff.mp hRaised).2 (by lia)
  | _ => exact ⟨_, rfl⟩

theorem observeAll_eq_run {positions : List Position}
    (h : t.observeAll positions = (t', .ok ())) : t' = t.run (positions.map .observe) := by
  induction positions generalizing t with
  | nil =>
      cases h
      rfl
  | cons first rest ih =>
      rw [observeAll] at h
      cases hSeen : t.observe first with
      | error fault => simp [hSeen] at h
      | ok next =>
          rw [hSeen] at h
          have hNext : t.perform (.observe first) = next := by rw [perform, hSeen]; rfl
          have hRest := ih h
          rw [← hNext] at hRest
          exact hRest

end Faults

end Tracker

namespace Store

variable {ν : Type}

/-- What a store and its tracker are told: an operation of the tracker, or an invalidation. -/
inductive Notice where
  | tracker (op : Tracker.Op)
  | single (key : Option Data) (position : Position)
  | batch (keys : List Data) (sources : List SourceId) (partitions : List PartitionId)
      (sequences : List Sequence)

namespace Notice

/-- The numbers that a notice tells, each with its partition. -/
def told : Notice → List (PartitionId × Sequence)
  | .tracker op => op.told
  | .single _ position => [(position.partition, position.sequence)]
  | .batch _ _ partitions sequences => partitions.zip sequences

/-- The operations that a notice comes down to for the tracker. -/
def ops : Notice → List Tracker.Op
  | .tracker op => [op]
  | .single _ position => [.observe position]
  | .batch keys sources partitions sequences =>
    (if Fits keys sources partitions sequences then batchPositions sources partitions sequences
      else []).map .observe

theorem told_ops (notice : Notice) : notice.ops.flatMap Tracker.Op.told ⊆ notice.told := by
  intro n hn
  cases notice with
  | tracker op => simpa [ops, told] using hn
  | single key position => simpa [ops, told, Tracker.Op.told] using hn
  | batch keys sources partitions sequences =>
      obtain ⟨op, hm, hTold⟩ := List.mem_flatMap.mp hn
      obtain ⟨position, hPosition, rfl⟩ := List.mem_map.mp hm
      split_ifs at hPosition
      · obtain ⟨⟨source, partition, sequence⟩, hZip, rfl⟩ := List.mem_map.mp hPosition
        rw [List.mem_singleton.mp hTold]
        exact (List.of_mem_zip hZip).2
      · exact absurd hPosition List.not_mem_nil

end Notice

/-- Acts on a notice. -/
def heed (highWater : Nat) (s : Store ν) : Notice → Attempt (Store ν) Unit
  | .tracker op => (s.withTracker (s.tracker.perform op), (s.tracker.answer op).map fun _ => ())
  | .single key position => s.applySingle key position
  | .batch keys sources partitions sequences =>
    let applied := s.applyBatch highWater keys sources partitions sequences
    (applied.1, applied.2.map fun _ => ())

/-- The store after several notices. -/
def heedAll (highWater : Nat) (s : Store ν) (notices : List Notice) : Store ν :=
  History.run (fun s notice => (heed highWater s notice).1) s notices

/-- Several notices, each with the store that meets it. -/
def heedings (highWater : Nat) (s : Store ν) (notices : List Notice) : List (Store ν × Notice) :=
  History.steps (fun s notice => (heed highWater s notice).1) s notices

section Notices

variable (highWater : Nat) {s : Store ν} {notice : Notice} {notices : List Notice}

/-- A notice that comes down to positions in range moves the tracker past all of them. -/
theorem heed_of_observed {positions : List Position} (hTracker : s.tracker.Nonnegative)
    (hRange : ∀ n ∈ notice.told, 0 ≤ n.2 ∧ n.2 ≤ maxSequence)
    (hOps : notice.ops = positions.map .observe)
    (hSeen : s.tracker.observeAll positions =
      ((heed highWater s notice).1.tracker, (heed highWater s notice).2)) :
    (heed highWater s notice).2 = .ok () ∧
      (heed highWater s notice).1.tracker = s.tracker.run notice.ops := by
  have hPositions : ∀ p ∈ positions, 0 ≤ p.sequence ∧ p.sequence ≤ maxSequence := by
    intro p hm
    refine hRange (p.partition, p.sequence) (notice.told_ops (List.mem_flatMap.mpr ?_))
    rw [hOps]
    exact ⟨.observe p, List.mem_map_of_mem hm, List.mem_singleton_self _⟩
  obtain ⟨t', hRun, -⟩ := Tracker.observeAll_ok hTracker hPositions
  have hEnd := Tracker.observeAll_eq_run hRun
  rw [hRun, Prod.mk.injEq] at hSeen
  rw [hOps, ← hEnd]
  exact ⟨hSeen.2.symm, hSeen.1.symm⟩

/-- A notice of numbers in range causes no fault unless something known is negative, and for the
tracker it comes down to its operations. -/
theorem heed_ok (hTracker : s.tracker.Nonnegative)
    (hRange : ∀ n ∈ notice.told, 0 ≤ n.2 ∧ n.2 ≤ maxSequence) :
    (heed highWater s notice).2 = .ok () ∧
      (heed highWater s notice).1.tracker = s.tracker.run notice.ops := by
  cases notice with
  | tracker op =>
      obtain ⟨answer, hAnswer⟩ := Tracker.answer_ok hTracker fun n hn => (hRange n hn).2
      exact ⟨by rw [heed, hAnswer]; rfl, rfl⟩
  | single key position =>
      exact heed_of_observed highWater hTracker hRange rfl (s.tracker_applySingle key position)
  | batch keys sources partitions sequences =>
      exact heed_of_observed highWater hTracker hRange rfl s.tracker_applyBatch

/-- In a run that tells only numbers in range nothing is stopped, and all that is known was told. -/
theorem backed_heedAll {tolerance : Int} (hNew : s.tracker = .empty tolerance)
    (hRange : ∀ notice ∈ notices, ∀ n ∈ notice.told, 0 ≤ n.2 ∧ n.2 ≤ maxSequence) :
    (heedAll highWater s notices).tracker.Backed (notices.flatMap Notice.told) ∧
    ∀ step ∈ heedings highWater s notices, (heed highWater step.1 step.2).2 = .ok () := by
  induction notices using List.reverseRecOn with
  | nil =>
      refine ⟨?_, fun step hm => absurd hm List.not_mem_nil⟩
      show s.tracker.Backed _
      rw [hNew]
      exact Tracker.backed_empty tolerance
  | append_singleton before last ih =>
      obtain ⟨hBacked, hOk⟩ := ih fun notice hm => hRange notice (List.mem_append_left _ hm)
      have hLast := hRange last (List.mem_append_right _ (List.mem_singleton_self last))
      obtain ⟨hDone, hMoved⟩ := heed_ok highWater hBacked.nonnegative hLast
      have hNonneg : ∀ n ∈ (before ++ [last]).flatMap Notice.told, 0 ≤ n.2 := by
        intro n hn
        obtain ⟨notice, hm, hTold⟩ := List.mem_flatMap.mp hn
        exact (hRange notice hm n hTold).1
      refine ⟨?_, fun step hm => ?_⟩
      · rw [heedAll, History.run_concat]
        show (heed highWater (heedAll highWater s before) last).1.tracker.Backed _
        rw [hMoved]
        rw [List.flatMap_append, List.flatMap_singleton] at hNonneg ⊢
        exact (hBacked.mono (List.subset_append_left _ _)).run
          (fun n hn => List.mem_append_right _ (last.told_ops hn)) hNonneg
      · rw [heedings, History.steps_concat, List.mem_append, List.mem_singleton] at hm
        rcases hm with hm | rfl
        · exact hOk step hm
        · exact hDone

end Notices

/-- The largest of some numbers, and zero if there is none. -/
def largest (numbers : List Sequence) : Sequence :=
  numbers.foldr max 0

theorem largest_nonneg (numbers : List Sequence) : 0 ≤ largest numbers := by
  induction numbers with
  | nil => exact le_refl _
  | cons first rest ih => exact le_max_of_le_right ih

/-- As long as no negative number is told, no distance is too large, and what is known of a partition
lies between zero and the largest number told of it. Whatever was told, an event or a report finds a
distance that is too large exactly if the partition keeps its source and the number lies more than the
largest sequence number above the latest one; then every partition is left as it was, and the call
has made none known. -/
theorem numbers_in_range (tolerance : Int) (s : Store ν) (hNew : s.tracker = .empty tolerance)
    (highWater : Nat) :
    (∀ notices : List Notice,
      (∀ notice ∈ notices, ∀ n ∈ notice.told, 0 ≤ n.2 ∧ n.2 ≤ maxSequence) →
      (∀ step ∈ heedings highWater s notices, (heed highWater step.1 step.2).2 = .ok ()) ∧
      ∀ (p : PartitionId) (m : PartitionState),
        (heedAll highWater s notices).tracker.partitions[p]? = some m →
        m.Within (largest (Tracker.toldOf p (notices.flatMap Notice.told)))) ∧
    (∀ (t : Tracker) (position : Position), position.sequence ≤ maxSequence →
      (t.observe position = .error .subtractOverflow ↔
        (t.state position.partition).source = position.source ∧
          maxSequence < position.sequence - (t.state position.partition).latest) ∧
      ∀ fault, t.observe position = .error fault →
        t.perform (.observe position) = t ∧ t.touch position.partition = t) ∧
    (∀ (t : Tracker) (p : PartitionId) (sequence : Sequence) (reported : Bool),
      sequence ≤ maxSequence →
      (t.repairSequence p sequence reported = .error .subtractOverflow ↔
        maxSequence < sequence - (t.state p).latest) ∧
      ∀ fault, t.repairSequence p sequence reported = .error fault →
        t.perform (.repairSequence p sequence reported) = t ∧ t.touch p = t) := by
  refine ⟨fun notices hRange => ?_, fun t position hMax => ⟨?_, fun fault hFault => ?_⟩,
    fun t p sequence reported hMax => ⟨?_, fun fault hFault => ?_⟩⟩
  · obtain ⟨hBacked, hOk⟩ := backed_heedAll highWater hNew hRange
    refine ⟨hOk, fun p m hKnown => ?_⟩
    obtain ⟨hGrounded, hLatest⟩ := hBacked p m hKnown
    apply hGrounded.within
    rcases hLatest with hZero | hTold
    · rw [hZero]
      exact largest_nonneg _
    · exact List.le_max_of_le' 0 (Tracker.mem_toldOf.mpr hTold) (le_refl _)
  · rw [Tracker.observe_eq_error_iff]
    exact and_iff_right rfl
  · have hFar := (Tracker.observe_eq_error_iff.mp hFault).2.2
    refine ⟨?_, Tracker.touch_of_distance hMax hFar⟩
    rw [Tracker.perform, hFault]
    rfl
  · rw [Tracker.repairSequence_eq_error_iff]
    exact and_iff_right rfl
  · have hFar := (Tracker.repairSequence_eq_error_iff.mp hFault).2
    refine ⟨?_, Tracker.touch_of_distance hMax hFar⟩
    rw [Tracker.perform, hFault]
    rfl

/-- A first report, events and a report of the largest number there is; and a partition that starts
below zero, from where that number is too far. -/
theorem numbers_in_range_up_to_limit :
    let s : Store Nat := empty ⟨4, .lru, none, none⟩ (.empty 1)
    let notices : List Notice := [.tracker (.seedSequences [(3, 5)]), .single none ⟨3, 0, 9⟩,
      .batch [⟨[1]⟩, ⟨[2]⟩] [0, 7] [3, 4] [4, 6], .tracker (.repairSequence 3 maxSequence true)]
    let t := (Tracker.empty 1).run [.observe ⟨3, 7, -5⟩]
    s.tracker = .empty 1 ∧
      (∀ notice ∈ notices, ∀ n ∈ notice.told, 0 ≤ n.2 ∧ n.2 ≤ maxSequence) ∧
      (heedAll 10 s notices).tracker.partitions[(3 : PartitionId)]? =
        some ⟨0, maxSequence, 5, maxSequence - 9⟩ ∧
      PartitionState.Within ⟨0, maxSequence, 5, maxSequence - 9⟩ maxSequence ∧
      t.observe ⟨3, 7, maxSequence⟩ = .error .subtractOverflow ∧ t.touch 3 = t := by
  intro s notices t
  obtain ⟨hRun, hObserve, -⟩ := numbers_in_range 1 s rfl 10
  have hRange : ∀ notice ∈ notices, ∀ n ∈ notice.told, 0 ≤ n.2 ∧ n.2 ≤ maxSequence := by decide
  have hKnown : (heedAll 10 s notices).tracker.partitions[(3 : PartitionId)]? =
      some ⟨0, maxSequence, 5, maxSequence - 9⟩ := by decide
  have hLargest : largest (Tracker.toldOf 3 (notices.flatMap Notice.told)) = maxSequence := by decide
  have hWithin := (hRun notices hRange).2 3 _ hKnown
  rw [hLargest] at hWithin
  obtain ⟨hFar, hKept⟩ := hObserve t ⟨3, 7, maxSequence⟩ (by decide)
  have hFault : t.observe ⟨3, 7, maxSequence⟩ = .error .subtractOverflow := hFar.mpr (by decide)
  exact ⟨rfl, hRange, hKnown, hWithin, hFault, (hKept _ hFault).2⟩

end Store

end NearCache
