import Mathlib.Tactic.SplitIfs
import NearCache.Proofs.History
import NearCache.Proofs.Partition
import NearCache.Tracker

/-!
Runs of a tracker: any of its operations in any order, and what one of them does to one partition.
-/

namespace NearCache

namespace Tracker

/-- An operation of a tracker. -/
inductive Op where
  | touch (partition : PartitionId)
  | stamp (partition : PartitionId)
  | observe (position : Position)
  | repairGaps
  | seedSources (sources : List (PartitionId × SourceId))
  | seedSequences (sequences : List (PartitionId × Sequence))
  | repairSource (partition : PartitionId) (source : SourceId)
  | repairSequence (partition : PartitionId) (sequence : Sequence) (reported : Bool)
  | reset
deriving DecidableEq

/-- The tracker after an operation. One that is stopped by a fault leaves it as it was. -/
def perform (t : Tracker) : Op → Tracker
  | .touch p => t.touch p
  | .stamp p => (t.stamp p).1
  | .observe s => (t.observe s).toOption.getD t
  | .repairGaps => t.repairGaps.1
  | .seedSources sources => t.seedSources sources
  | .seedSequences sequences => t.seedSequences sequences
  | .repairSource p source => (t.repairSource p source).1
  | .repairSequence p sequence reported =>
    ((t.repairSequence p sequence reported).toOption.map Prod.fst).getD t
  | .reset => t.reset

/-- The tracker after several operations, in order. -/
def run (t : Tracker) (ops : List Op) : Tracker :=
  History.run perform t ops

/-- The single changes of an operation. A first report is applied element by element, and the tracker
may be used in between. -/
def Op.split : Op → List Op
  | .seedSources sources => sources.map fun p => .seedSources [p]
  | .seedSequences sequences => sequences.map fun p => .seedSequences [p]
  | op => [op]

theorem run_append (t : Tracker) (ops more : List Op) :
    t.run (ops ++ more) = (t.run ops).run more :=
  History.run_append perform t ops more

theorem perform_split (t : Tracker) (op : Op) : t.run op.split = t.perform op := by
  cases op with
  | seedSources sources => exact List.foldl_map
  | seedSequences sequences => exact List.foldl_map
  | _ => rfl

/-- A run is the same as that of its single changes. -/
theorem run_split (t : Tracker) (ops : List Op) : t.run (ops.flatMap Op.split) = t.run ops := by
  induction ops generalizing t with
  | nil => rfl
  | cons op rest ih =>
      rw [List.flatMap_cons, run_append, perform_split, ih]
      rfl

/-- A single change has no parts. -/
theorem split_of_mem_split {op part : Op} (h : part ∈ op.split) : part.split = [part] := by
  cases op with
  | seedSources sources =>
      obtain ⟨p, -, rfl⟩ := List.mem_map.mp h
      rfl
  | seedSequences sequences =>
      obtain ⟨p, -, rfl⟩ := List.mem_map.mp h
      rfl
  | _ =>
      rw [List.mem_singleton.mp h]
      rfl

section Partitions

variable (t : Tracker) (p q : PartitionId)

theorem getElem?_setState (m : PartitionState) :
    (t.setState p m).partitions[q]? = if p = q then some m else t.partitions[q]? := by
  simp [setState, Std.ExtTreeMap.getElem?_insert]

theorem getElem?_touch :
    (t.touch p).partitions[q]? = if p = q then some (t.state q) else t.partitions[q]? := by
  simp only [touch, state, Std.ExtTreeMap.getElem?_insertIfNew, Std.LawfulEqCmp.compare_eq_iff_eq]
  by_cases hp : p = q
  · subst hp
    cases hKnown : t.partitions[p]? with
    | none => simp [Std.ExtTreeMap.mem_iff_isSome_getElem?, hKnown]
    | some m => simp [Std.ExtTreeMap.mem_iff_isSome_getElem?, hKnown]
  · simp [hp]

theorem getElem?_repairGaps :
    t.repairGaps.1.partitions[q]? = t.partitions[q]?.map (·.repairGap t.tolerance) := by
  simp [repairGaps]

theorem state_of_known {m : PartitionState} (h : t.partitions[p]? = some m) : t.state p = m := by
  rw [state, h]
  rfl

/-- Trackers that know the same of every partition, and tolerate as much, are the same. -/
theorem eq_of_partitions {t t' : Tracker} (hTolerance : t.tolerance = t'.tolerance)
    (h : ∀ p : PartitionId, t.partitions[p]? = t'.partitions[p]?) : t = t' := by
  obtain ⟨tolerance, partitions⟩ := t
  obtain ⟨tolerance', partitions'⟩ := t'
  have hPartitions : partitions = partitions' := Std.ExtTreeMap.ext_getElem? h
  rw [hPartitions]
  exact congrArg (Tracker.mk · partitions') hTolerance

variable {t} in
theorem isStale_of_known {s : Position} {m : PartitionState}
    (hKnown : t.partitions[s.partition]? = some m) :
    t.isStale s = true ↔ s.source ≠ m.source ∨ s.sequence < m.floor := by
  simp [isStale, hKnown, PartitionState.isStale]

end Partitions

namespace Op

/-- An operation concerns a partition that it names; gap repair and reset concern all of them. -/
def concerns (p : PartitionId) : Op → Bool
  | .touch q | .stamp q | .repairSource q _ | .repairSequence q _ _ => q = p
  | .observe s => s.partition = p
  | .seedSources sources => sources.any fun named => named.1 = p
  | .seedSequences sequences => sequences.any fun named => named.1 = p
  | .repairGaps | .reset => true

/-- What a single operation makes of what is known of a partition that it concerns. -/
def act (tolerance : Int) (known : Option PartitionState) : Op → Option PartitionState
  | .touch _ | .stamp _ => some (known.getD .initial)
  | .observe s => ((known.getD .initial).observe s.source s.sequence).toOption.or known
  | .repairGaps => known.map (·.repairGap tolerance)
  | .seedSources sources =>
    sources.foldl (fun known named => some ((known.getD .initial).adoptSource named.2)) known
  | .seedSequences sequences =>
    sequences.foldl (fun known named => some ((known.getD .initial).seedSequence named.2)) known
  | .repairSource _ source => some ((known.getD .initial).adoptSource source)
  | .repairSequence _ sequence reported =>
    ((known.getD .initial).advance sequence reported).toOption.or known
  | .reset => none

end Op

section Operations

variable (t : Tracker) (p q : PartitionId)

theorem getElem?_setState_own (next : Option PartitionState → PartitionState) :
    (t.setState q (next t.partitions[q]?)).partitions[p]? =
      if q = p then some (next t.partitions[p]?) else t.partitions[p]? := by
  rw [getElem?_setState]
  split_ifs with hOwn
  · rw [hOwn]
  · rfl

/-- A change that a fault can stop is made in its own partition or not at all. -/
theorem getElem?_attempt (next : PartitionState → Except Fault PartitionState) :
    (((next (t.state q)).map (t.setState q)).toOption.getD t).partitions[p]? =
      if q = p then (next (t.partitions[p]?.getD .initial)).toOption.or t.partitions[p]?
      else t.partitions[p]? := by
  cases hNext : next (t.state q) with
  | error fault =>
      show t.partitions[p]? = _
      split_ifs with hOwn
      · subst hOwn
        rw [state] at hNext
        rw [hNext]
        rfl
      · rfl
  | ok m =>
      show (t.setState q m).partitions[p]? = _
      rw [getElem?_setState]
      split_ifs with hOwn
      · subst hOwn
        rw [state] at hNext
        rw [hNext]
        rfl
      · rfl

theorem perform_repairSequence (sequence : Sequence) (reported : Bool) :
    t.perform (.repairSequence q sequence reported) =
      (((t.state q).advance sequence reported).map (t.setState q)).toOption.getD t := by
  simp only [perform, repairSequence]
  cases (t.state q).advance sequence reported <;> rfl

/-- A single operation moves each partition that it concerns by itself, and leaves the others as they
are. -/
theorem getElem?_perform {op : Op} (hSingle : op.split = [op]) :
    (t.perform op).partitions[p]? =
      if op.concerns p then op.act t.tolerance t.partitions[p]? else t.partitions[p]? := by
  cases op with
  | touch q =>
      simp only [Op.concerns, decide_eq_true_eq]
      exact getElem?_touch t q p
  | stamp q =>
      simp only [Op.concerns, decide_eq_true_eq]
      exact getElem?_touch t q p
  | observe s =>
      simp only [Op.concerns, decide_eq_true_eq]
      exact getElem?_attempt t p s.partition fun m => m.observe s.source s.sequence
  | repairGaps => exact getElem?_repairGaps t p
  | seedSources sources =>
      obtain ⟨named, rfl, -⟩ := List.map_eq_singleton_iff.mp hSingle
      simp only [Op.concerns, List.any_cons, List.any_nil, Bool.or_false, decide_eq_true_eq]
      exact getElem?_setState_own t p named.1 fun known =>
        (known.getD .initial).adoptSource named.2
  | seedSequences sequences =>
      obtain ⟨named, rfl, -⟩ := List.map_eq_singleton_iff.mp hSingle
      simp only [Op.concerns, List.any_cons, List.any_nil, Bool.or_false, decide_eq_true_eq]
      exact getElem?_setState_own t p named.1 fun known =>
        (known.getD .initial).seedSequence named.2
  | repairSource q source =>
      simp only [Op.concerns, decide_eq_true_eq]
      exact getElem?_setState_own t p q fun known => (known.getD .initial).adoptSource source
  | repairSequence q sequence reported =>
      simp only [Op.concerns, decide_eq_true_eq]
      rw [perform_repairSequence]
      exact getElem?_attempt t p q fun m => m.advance sequence reported
  | reset =>
      show (∅ : Std.ExtTreeMap PartitionId PartitionState)[p]? = none
      simp

end Operations

/-- What `t'` knows of a partition is what `t` knew, or comes from it by one change. -/
def ChangesAt (p : PartitionId) (t t' : Tracker) : Prop :=
  t'.partitions[p]? = t.partitions[p]? ∨
    ∃ m, t'.partitions[p]? = some m ∧ (t.state p).Change m

/-- What a fault can stop either leaves what is known or succeeds. -/
theorem attempt_cases (known : Option PartitionState) (next : Except Fault PartitionState) :
    next.toOption.or known = known ∨ ∃ m, next = .ok m ∧ next.toOption.or known = some m := by
  cases next with
  | error fault => exact Or.inl rfl
  | ok m => exact Or.inr ⟨m, rfl, rfl⟩

/-- A single operation other than a reset makes at most one change to what is known. -/
theorem Op.act_change {op : Op} (hSingle : op.split = [op]) (hReset : op ≠ .reset) (tolerance : Int)
    (known : Option PartitionState) :
    op.act tolerance known = known ∨
      ∃ m, op.act tolerance known = some m ∧ (known.getD .initial).Change m := by
  cases op with
  | touch q => exact Or.inr ⟨_, rfl, .stay⟩
  | stamp q => exact Or.inr ⟨_, rfl, .stay⟩
  | observe s =>
      refine (attempt_cases known _).imp_right ?_
      rintro ⟨m, hSeen, hNext⟩
      exact ⟨m, hNext, PartitionState.observe_change hSeen⟩
  | repairGaps =>
      cases known with
      | none => exact Or.inl rfl
      | some m => exact Or.inr ⟨_, rfl, m.repairGap_change tolerance⟩
  | seedSources sources =>
      obtain ⟨first, rfl, -⟩ := List.map_eq_singleton_iff.mp hSingle
      exact Or.inr ⟨_, rfl, PartitionState.adoptSource_change _ first.2⟩
  | seedSequences sequences =>
      obtain ⟨first, rfl, -⟩ := List.map_eq_singleton_iff.mp hSingle
      exact Or.inr ⟨_, rfl, PartitionState.seedSequence_change _ first.2⟩
  | repairSource q source => exact Or.inr ⟨_, rfl, PartitionState.adoptSource_change _ source⟩
  | repairSequence q sequence reported =>
      refine (attempt_cases known _).imp_right ?_
      rintro ⟨m, hRaised, hNext⟩
      exact ⟨m, hNext, PartitionState.advance_change hRaised⟩
  | reset => exact absurd rfl hReset

/-- A single operation other than a reset makes at most one change to each partition. -/
theorem changesAt_perform (t : Tracker) {op : Op} (hSingle : op.split = [op]) (hReset : op ≠ .reset)
    (p : PartitionId) : ChangesAt p t (t.perform op) := by
  unfold ChangesAt
  rw [getElem?_perform t p hSingle]
  split_ifs
  · exact Op.act_change hSingle hReset t.tolerance t.partitions[p]?
  · exact Or.inl rfl

/-- What every single operation keeps is kept by every run. -/
theorem run_induction {P : Tracker → Prop} {ops : List Op}
    (hStep : ∀ t, ∀ op ∈ ops.flatMap Op.split, op.split = [op] → P t → P (t.perform op))
    {t : Tracker} (h : P t) : P (t.run ops) := by
  rw [← run_split]
  have hSingle : ∀ op ∈ ops.flatMap Op.split, op.split = [op] := by
    intro op hm
    obtain ⟨whole, -, hPart⟩ := List.mem_flatMap.mp hm
    exact split_of_mem_split hPart
  generalize ops.flatMap Op.split = parts at hStep hSingle
  induction parts generalizing t with
  | nil => exact h
  | cons op rest ih =>
      refine ih (t := t.perform op) ?_ ?_ ?_
      · exact hStep t op (List.mem_cons_self ..) (hSingle op (List.mem_cons_self ..)) h
      · exact fun t' op' hm => hStep t' op' (List.mem_cons_of_mem _ hm)
      · exact fun op' hm => hSingle op' (List.mem_cons_of_mem _ hm)

theorem tolerance_perform (t : Tracker) {op : Op} (hSingle : op.split = [op]) :
    (t.perform op).tolerance = t.tolerance := by
  cases op with
  | observe s =>
      simp only [perform, observe]
      cases (t.state s.partition).observe s.source s.sequence <;> rfl
  | repairSequence q sequence reported =>
      simp only [perform, repairSequence]
      cases (t.state q).advance sequence reported <;> rfl
  | seedSources sources =>
      obtain ⟨first, rfl, -⟩ := List.map_eq_singleton_iff.mp hSingle
      rfl
  | seedSequences sequences =>
      obtain ⟨first, rfl, -⟩ := List.map_eq_singleton_iff.mp hSingle
      rfl
  | _ => rfl

/-- What is known of every partition is sound. -/
def Sound (t : Tracker) : Prop :=
  ∀ (p : PartitionId) (m : PartitionState), t.partitions[p]? = some m → m.Sound

theorem sound_empty (tolerance : Int) : Sound (.empty tolerance) := by
  intro p m h
  simp [empty] at h

theorem Sound.state {t : Tracker} (h : Sound t) (p : PartitionId) : (t.state p).Sound := by
  unfold Tracker.state
  cases hKnown : t.partitions[p]? with
  | none => exact PartitionState.sound_initial
  | some m => exact h p m hKnown

theorem Sound.perform {t : Tracker} {op : Op} (h : Sound t) (hSingle : op.split = [op]) :
    Sound (t.perform op) := by
  intro p m hKnown
  by_cases hReset : op = .reset
  · subst hReset
    simp [Tracker.perform, reset] at hKnown
  · rcases changesAt_perform t hSingle hReset p with hSame | ⟨m', hKnown', change⟩
    · exact h p m (hSame ▸ hKnown)
    · rw [hKnown] at hKnown'
      cases hKnown'
      exact change.sound (h.state p)

theorem Sound.run {t : Tracker} (h : Sound t) (ops : List Op) : Sound (t.run ops) :=
  run_induction (fun _ _ _ hSingle hSound => hSound.perform hSingle) h

end Tracker

end NearCache
