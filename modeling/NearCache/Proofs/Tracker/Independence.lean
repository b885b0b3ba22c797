import NearCache.Proofs.Tracker.Repair

/-!
The partitions of a tracker are independent. Each moves by the operations that concern it and by
nothing else, so a run is settled by what it tells every single partition: how the partitions take
turns shows neither in the end nor in any answer.
-/

namespace NearCache

namespace Tracker

/-- What comes back from a tracker. -/
inductive Answer where
  | done
  | stamp (position : Position)
  | verdict (yes : Bool)
  | count (repaired : Nat)
deriving DecidableEq

/-- The answer to an operation, unless a fault stops it. -/
def answer (t : Tracker) : Op → Except Fault Answer
  | .stamp p => .ok (.stamp (t.stamp p).2)
  | .observe s => (t.observe s).map fun _ => .done
  | .repairGaps => .ok (.count t.repairGaps.2)
  | .repairSource p source => .ok (.verdict (t.repairSource p source).2)
  | .repairSequence p sequence reported =>
    (t.repairSequence p sequence reported).map fun repaired => .verdict repaired.2
  | .touch _ | .seedSources _ | .seedSequences _ | .reset => .ok .done

/-- The answer to a single operation on one partition depends on what is known of that partition. -/
theorem answer_congr {t t' : Tracker} {p : PartitionId} {op : Op}
    (h : t.partitions[p]? = t'.partitions[p]?)
    (hOwn : op.concerns p = true) (hGaps : op ≠ .repairGaps) : t.answer op = t'.answer op := by
  have hState : t.state p = t'.state p := by rw [state, state, h]
  cases op with
  | stamp q =>
      have hp : q = p := of_decide_eq_true hOwn
      simp only [answer, stamp, hp, hState]
  | observe s =>
      have hp : s.partition = p := of_decide_eq_true hOwn
      simp only [answer, observe, hp, hState]
      cases (t'.state p).observe s.source s.sequence <;> rfl
  | repairGaps => exact absurd rfl hGaps
  | repairSource q source =>
      have hp : q = p := of_decide_eq_true hOwn
      simp only [answer, repairSource, hp, hState]
  | repairSequence q sequence reported =>
      have hp : q = p := of_decide_eq_true hOwn
      simp only [answer, repairSequence, hp, hState]
      cases (t'.state p).advance sequence reported <;> rfl
  | touch q => rfl
  | seedSources sources => rfl
  | seedSequences sequences => rfl
  | reset => rfl

/-- All that a partition goes by: what is known of it, and what the tracker tolerates. -/
structure Facet where
  tolerance : Int
  known : Option PartitionState

/-- The facet of a partition. -/
def facet (p : PartitionId) (t : Tracker) : Facet :=
  ⟨t.tolerance, t.partitions[p]?⟩

/-- A use of a tracker: an operation, or the question whether a stamp is stale. -/
inductive Call where
  | operate (op : Op)
  | isStale (stamp : Position)
deriving DecidableEq

namespace Call

/-- The single changes of a use. -/
def split : Call → List Call
  | .operate op => op.split.map .operate
  | .isStale s => [.isStale s]

def concerns (p : PartitionId) : Call → Bool
  | .operate op => op.concerns p
  | .isStale s => s.partition = p

def repairsGaps (call : Call) : Bool :=
  call = .operate .repairGaps

/-- The use concerns this partition, but not all of them. -/
def isAbout (p : PartitionId) (call : Call) : Bool :=
  call.concerns p && !call.repairsGaps && call ≠ .operate .reset

/-- What a single use makes of a facet that it concerns. -/
def act (facet : Facet) : Call → Facet
  | .operate op => { facet with known := op.act facet.tolerance facet.known }
  | .isStale _ => facet

theorem concerns_of_isAbout {p : PartitionId} {call : Call} (h : call.isAbout p = true) :
    call.concerns p = true := by
  simp only [isAbout, Bool.and_eq_true] at h
  exact h.1.1

theorem split_of_mem_split {call part : Call} (h : part ∈ call.split) : part.split = [part] := by
  cases call with
  | operate op =>
      obtain ⟨single, hm, rfl⟩ := List.mem_map.mp h
      rw [split, Tracker.split_of_mem_split hm]
      rfl
  | isStale s =>
      rw [List.mem_singleton.mp h]
      rfl

theorem operate_split {op : Op} (h : (Call.operate op).split = [.operate op]) : op.split = [op] := by
  obtain ⟨single, hSplit, hSame⟩ := List.map_eq_singleton_iff.mp h
  cases hSame
  exact hSplit

/-- The single changes of a use concern the partitions that it concerns. -/
theorem concerns_of_mem_split {p : PartitionId} {call part : Call} (h : part ∈ call.split)
    (hOwn : part.concerns p = true) : call.concerns p = true := by
  cases call with
  | operate op =>
      obtain ⟨single, hm, rfl⟩ := List.mem_map.mp h
      cases op with
      | seedSources sources =>
          obtain ⟨named, hNamed, rfl⟩ := List.mem_map.mp hm
          exact List.any_eq_true.mpr ⟨named, hNamed, by simpa [concerns, Op.concerns] using hOwn⟩
      | seedSequences sequences =>
          obtain ⟨named, hNamed, rfl⟩ := List.mem_map.mp hm
          exact List.any_eq_true.mpr ⟨named, hNamed, by simpa [concerns, Op.concerns] using hOwn⟩
      | _ => rwa [List.mem_singleton.mp hm] at hOwn
  | isStale s => rwa [List.mem_singleton.mp h] at hOwn

end Call

/-- The tracker after a use. -/
def use (t : Tracker) : Call → Tracker
  | .operate op => t.perform op
  | .isStale _ => t

/-- What comes back from a use. -/
def reply (t : Tracker) : Call → Except Fault Answer
  | .operate op => t.answer op
  | .isStale s => .ok (.verdict (t.isStale s))

/-- The single changes of a run that concern a partition, in order. -/
def part (p : PartitionId) (calls : List Call) : List Call :=
  (calls.flatMap Call.split).filter (Call.concerns p)

/-- What comes back in a run, with the single changes that it comes back from. -/
def replies (t : Tracker) (calls : List Call) : List (Call × Except Fault Answer) :=
  (History.steps use t calls).flatMap fun step =>
    step.2.split.map fun single => (single, step.1.reply step.2)

/-- Two runs from the same state cannot be told apart partition by partition: they end in the same
state, every partition has the same answers in the same order, and so has gap repair. -/
structure Alike (t : Tracker) (calls calls' : List Call) : Prop where
  run : History.run use t calls = History.run use t calls'
  answers : ∀ p, (t.replies calls).filter (fun r => r.1.isAbout p) =
    (t.replies calls').filter fun r => r.1.isAbout p
  counts : (t.replies calls).filter (fun r => r.1.repairsGaps) =
    (t.replies calls').filter fun r => r.1.repairsGaps

section Uses

variable {t t' : Tracker} {p : PartitionId} {call : Call}

theorem eq_of_facets (h : ∀ p, t.facet p = t'.facet p) : t = t' :=
  eq_of_partitions (congrArg Facet.tolerance (h 0)) fun p => congrArg Facet.known (h p)

/-- A single use moves the facets that it concerns, each by itself, and leaves the others. -/
theorem facet_use (t : Tracker) (hSingle : call.split = [call]) :
    (t.use call).facet p = if call.concerns p then call.act (t.facet p) else t.facet p := by
  cases call with
  | operate op =>
      have hOp := Call.operate_split hSingle
      have hKnown := getElem?_perform t p hOp
      show Facet.mk (t.perform op).tolerance (t.perform op).partitions[p]? =
        if op.concerns p then (Call.operate op).act (t.facet p) else t.facet p
      rw [tolerance_perform t hOp, hKnown]
      split_ifs <;> rfl
  | isStale s =>
      show t.facet p = _
      split_ifs <;> rfl

/-- A use that is about one partition is answered by the facet of that partition. -/
theorem reply_congr (h : t.facet p = t'.facet p) (hAbout : call.isAbout p = true) :
    t.reply call = t'.reply call := by
  have hKnown : t.partitions[p]? = t'.partitions[p]? := congrArg Facet.known h
  simp only [Call.isAbout, Call.repairsGaps, Bool.and_eq_true, Bool.not_eq_true',
    decide_eq_false_iff_not] at hAbout
  obtain ⟨⟨hOwn, hGaps⟩, -⟩ := hAbout
  cases call with
  | operate op => exact answer_congr hKnown hOwn fun hOp => hGaps (hOp ▸ rfl)
  | isStale s =>
      have hp : s.partition = p := of_decide_eq_true hOwn
      simp only [reply, isStale, hp, hKnown]

end Uses

/-- A run is the same as that of its single changes. -/
theorem use_split (t : Tracker) (call : Call) : History.run use t call.split = t.use call := by
  cases call with
  | operate op => exact List.foldl_map.trans (perform_split t op)
  | isStale s => rfl

theorem run_flatMap_split (t : Tracker) (calls : List Call) :
    History.run use t (calls.flatMap Call.split) = History.run use t calls := by
  induction calls generalizing t with
  | nil => rfl
  | cons call rest ih =>
      rw [List.flatMap_cons, History.run_append, use_split, ih]
      rfl

theorem replies_of_done (t : Tracker) {parts : List Call}
    (h : ∀ part ∈ parts, ∀ t : Tracker, t.reply part = .ok .done) :
    ((History.steps use t parts).map fun step => (step.2, step.1.reply step.2)) =
      parts.map fun part => (part, .ok .done) := by
  conv_rhs => rw [← History.steps_calls use t parts, List.map_map]
  apply List.map_congr_left
  intro step hm
  rw [h step.2 (History.call_mem_of_mem_steps hm) step.1]
  rfl

/-- The single changes of a use all get the answer that the use gets. -/
theorem replies_of_split (t : Tracker) (call : Call) :
    ((History.steps use t call.split).map fun step => (step.2, step.1.reply step.2)) =
      call.split.map fun single => (single, t.reply call) := by
  cases call with
  | operate op =>
      cases op with
      | seedSources sources =>
          refine replies_of_done t fun part hm t' => ?_
          obtain ⟨single, hSingle, rfl⟩ := List.mem_map.mp hm
          obtain ⟨named, -, rfl⟩ := List.mem_map.mp hSingle
          rfl
      | seedSequences sequences =>
          refine replies_of_done t fun part hm t' => ?_
          obtain ⟨single, hSingle, rfl⟩ := List.mem_map.mp hm
          obtain ⟨named, -, rfl⟩ := List.mem_map.mp hSingle
          rfl
      | _ => rfl
  | isStale s => rfl

theorem replies_eq (t : Tracker) (calls : List Call) :
    t.replies calls = (History.steps use t (calls.flatMap Call.split)).map
      fun step => (step.2, step.1.reply step.2) := by
  induction calls generalizing t with
  | nil => rfl
  | cons call rest ih =>
      rw [List.flatMap_cons, History.steps_append, List.map_append, replies_of_split, use_split, ← ih]
      rfl

/-- What only depends on how things look from each side is the same of two lists that look the same
from each side. -/
theorem map_eq_of_forall_map_eq {ι α β γ : Type} [Nonempty ι] (look : ι → α → β) {f : α → γ}
    {l l' : List α} (hSame : ∀ i, l.map (look i) = l'.map (look i))
    (hf : ∀ a ∈ l, ∀ b, (∀ i, look i a = look i b) → f a = f b) : l.map f = l'.map f := by
  have ⟨side⟩ := ‹Nonempty ι›
  induction l generalizing l' with
  | nil => rw [List.map_eq_nil_iff.mp (hSame side).symm]
  | cons first rest ih =>
      cases l' with
      | nil => exact absurd (hSame side) (List.cons_ne_nil _ _)
      | cons first' rest' =>
          have hBoth := fun i => List.cons.inj (hSame i)
          have hFirst := hf first List.mem_cons_self first' fun i => (hBoth i).1
          have hRest := ih (fun i => (hBoth i).2) fun a hm => hf a (List.mem_cons_of_mem _ hm)
          rw [List.map_cons, List.map_cons, hFirst, hRest]

section Runs

variable {t : Tracker} {calls calls' : List Call} {p : PartitionId}

theorem single_of_mem_flatMap {call : Call} (h : call ∈ calls.flatMap Call.split) :
    call.split = [call] := by
  obtain ⟨whole, -, hPart⟩ := List.mem_flatMap.mp h
  exact Call.split_of_mem_split hPart

/-- The tracker is the product of its partitions: a run moves every facet as the part of the run that
concerns the partition does alone. -/
theorem facet_run (t : Tracker) (calls : List Call) (p : PartitionId) :
    (History.run use t calls).facet p = History.run Call.act (t.facet p) (part p calls) := by
  rw [← run_flatMap_split]
  exact History.view_run fun s call hm => facet_use s (single_of_mem_flatMap hm)

/-- The uses of one kind, all of which concern a partition, with the facets that meet them. -/
theorem facet_steps {wanted : Call → Bool}
    (hWanted : ∀ call, wanted call = true → call.concerns p = true) :
    ((History.steps use t (calls.flatMap Call.split)).filter fun step => wanted step.2).map
        (fun step => (step.1.facet p, step.2)) =
      (History.steps Call.act (t.facet p) (part p calls)).filter fun step => wanted step.2 := by
  have hSteps : ((History.steps use t (calls.flatMap Call.split)).filter
        fun step => step.2.concerns p).map (fun step => (step.1.facet p, step.2)) =
      History.steps Call.act (t.facet p) (part p calls) :=
    History.view_steps fun s call hm => facet_use s (single_of_mem_flatMap hm)
  rw [← hSteps, List.filter_map, List.filter_filter]
  congr 1
  apply List.filter_congr
  intro step _
  cases hStep : wanted step.2 with
  | false => simp [hStep]
  | true => simp [hStep, hWanted step.2 hStep]

/-- Replies that hang on the facets of some partitions alone, from uses that concern all of these, are
the same in two runs that tell these partitions the same. -/
theorem replies_eq_of_parts {ι : Type} [Nonempty ι] (on : ι → PartitionId) {wanted : Call → Bool}
    (hWanted : ∀ i call, wanted call = true → call.concerns (on i) = true)
    (hReply : ∀ (t t' : Tracker) (call : Call), wanted call = true →
      (∀ i, t.facet (on i) = t'.facet (on i)) → t.reply call = t'.reply call)
    (hParts : ∀ i, part (on i) calls = part (on i) calls') :
    (t.replies calls).filter (fun r => wanted r.1) =
      (t.replies calls').filter fun r => wanted r.1 := by
  rw [replies_eq, replies_eq, List.filter_map, List.filter_map]
  refine map_eq_of_forall_map_eq (fun i step => (step.1.facet (on i), step.2)) ?_ ?_
  · intro i
    exact (facet_steps (hWanted i)).trans ((hParts i) ▸ (facet_steps (hWanted i)).symm)
  · intro step hm step' hSame
    obtain ⟨i⟩ := ‹Nonempty ι›
    have hReplies := hReply step.1 step'.1 step.2 (List.mem_filter.mp hm).2
      fun i => (Prod.mk.inj (hSame i)).1
    rw [hReplies, (Prod.mk.inj (hSame i)).2]

theorem alike_of_parts (h : ∀ p, part p calls = part p calls') : Alike t calls calls' where
  run := by
    apply eq_of_facets
    intro p
    rw [facet_run, facet_run, h p]
  answers p := by
    refine replies_eq_of_parts (fun _ : Unit => p) ?_ ?_ fun _ => h p
    · intro _ call hAbout
      exact Call.concerns_of_isAbout hAbout
    · intro t t' call hAbout hSame
      exact reply_congr (hSame ()) hAbout
  counts := by
    refine replies_eq_of_parts id ?_ ?_ h
    · intro p call hGaps
      rw [of_decide_eq_true hGaps]
      rfl
    · intro t t' call _ hSame
      rw [eq_of_facets hSame]

theorem part_append (p : PartitionId) (calls more : List Call) :
    part p (calls ++ more) = part p calls ++ part p more := by
  simp only [part, List.flatMap_append, List.filter_append]

theorem part_of_not_concerns {call : Call} (h : call.concerns p = false) : part p [call] = [] := by
  rw [part, List.filter_eq_nil_iff]
  intro single hm hOwn
  rw [List.flatMap_singleton] at hm
  rw [Call.concerns_of_mem_split hm hOwn] at h
  exact Bool.noConfusion h

/-- Two uses that share no partition may change places. -/
theorem part_swap {first second : Call}
    (hApart : ∀ p, first.concerns p = false ∨ second.concerns p = false)
    (before after : List Call) (p : PartitionId) :
    part p (before ++ first :: second :: after) = part p (before ++ second :: first :: after) := by
  have hPair : part p [first] ++ part p [second] = part p [second] ++ part p [first] := by
    rcases hApart p with hOther | hOther
    · rw [part_of_not_concerns hOther, List.nil_append, List.append_nil]
    · rw [part_of_not_concerns hOther, List.nil_append, List.append_nil]
  have hSplit : ∀ a b : Call, part p (before ++ a :: b :: after) =
      part p before ++ ((part p [a] ++ part p [b]) ++ part p after) := by
    intro a b
    rw [← part_append, ← part_append, ← part_append]
    rfl
  rw [hSplit, hSplit, hPair]

end Runs

/-- The partitions of a tracker are independent. Two runs that tell every partition the same in the
same order end in the same state, and every partition and gap repair get the same answers in them;
faults are among the answers. So two uses that share no partition may change places anywhere in a
run. -/
theorem partitions_independent (t : Tracker) :
    (∀ calls calls' : List Call, (∀ p, part p calls = part p calls') → Alike t calls calls') ∧
    (∀ (before after : List Call) (first second : Call),
      (∀ p, first.concerns p = false ∨ second.concerns p = false) →
      Alike t (before ++ first :: second :: after) (before ++ second :: first :: after)) := by
  refine ⟨fun calls calls' hParts => alike_of_parts hParts, ?_⟩
  intro before after first second hApart
  exact alike_of_parts (part_swap hApart before after)

/-- A first report of two partitions is told at once or one by one, and the events of the two take
turns differently; repair counts the one gap and its stamp is stale in both runs. -/
theorem partitions_independent_of_turns :
    let report : List (PartitionId × SourceId) := [(3, 7), (4, 8)]
    let calls : List Call := [.operate (.seedSources report), .operate (.observe ⟨3, 7, 1⟩),
      .operate (.observe ⟨4, 8, 2⟩), .operate (.stamp 3), .operate (.observe ⟨3, 7, 9⟩),
      .operate .repairGaps, .operate (.repairSource 4 8), .isStale ⟨3, 7, 1⟩]
    let calls' : List Call := [.operate (.seedSources [(4, 8)]), .operate (.observe ⟨4, 8, 2⟩),
      .operate (.seedSources [(3, 7)]), .operate (.observe ⟨3, 7, 1⟩), .operate (.stamp 3),
      .operate (.observe ⟨3, 7, 9⟩), .operate .repairGaps, .isStale ⟨3, 7, 1⟩,
      .operate (.repairSource 4 8)]
    (∀ p, part p calls = part p calls') ∧ Alike (empty 2) calls calls' ∧
      ((empty 2).replies calls).filter (fun r => r.1.isAbout 3) =
        [(.operate (.seedSources [(3, 7)]), .ok .done), (.operate (.observe ⟨3, 7, 1⟩), .ok .done),
          (.operate (.stamp 3), .ok (.stamp ⟨3, 7, 1⟩)), (.operate (.observe ⟨3, 7, 9⟩), .ok .done),
          (.isStale ⟨3, 7, 1⟩, .ok (.verdict true))] ∧
      ((empty 2).replies calls).filter (fun r => r.1.repairsGaps) =
        [(.operate .repairGaps, .ok (.count 1))] := by
  intro report calls calls'
  have hParts : ∀ p, part p calls = part p calls' := by
    intro p
    by_cases h3 : p = 3
    · subst h3
      rfl
    · by_cases h4 : p = 4
      · subst h4
        rfl
      · simp [calls, calls', report, part, Call.split, Op.split, Call.concerns, Op.concerns,
          List.filter_cons, Ne.symm h3, Ne.symm h4]
  exact ⟨hParts, (partitions_independent (empty 2)).1 calls calls' hParts, by decide, by decide⟩

end Tracker

end NearCache
