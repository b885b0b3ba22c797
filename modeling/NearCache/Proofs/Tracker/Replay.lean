import Mathlib.Tactic.Tauto
import NearCache.Proofs.Reconcile.Report

/-!
Positions that are told a second time in the same order. The states in between may differ from those
of the first time, since a source that has left comes back and starts over. The end is the same: where
the sources change, the change itself forgets what was known before, and where they do not, every
number has been passed already.
-/

namespace NearCache

namespace PartitionState

variable {m m' : PartitionState} {s : Position} {told : List Position}

/-- What an announced position makes of a partition if no distance is too large. -/
def follow (m : PartitionState) (s : Position) : PartitionState :=
  if m.source ≠ s.source then rotate s.source s.sequence
  else if s.sequence ≤ m.latest then m
  else { m with latest := s.sequence, missed := max m.missed (skipped m.latest s.sequence false) }

theorem observe_eq_follow (hLatest : 0 ≤ m.latest) (hRange : s.sequence ≤ maxSequence) :
    m.observe s.source s.sequence = .ok (m.follow s) := by
  unfold observe follow
  by_cases hSource : m.source = s.source
  · rw [if_pos hSource, if_neg (not_not.mpr hSource)]
    split_ifs with hOld
    · exact advance_of_le hOld
    · exact advance_of_lt (by lia) (by lia)
  · rw [if_neg hSource, if_pos hSource]

theorem follow_of_other (h : m.source ≠ s.source) : m.follow s = rotate s.source s.sequence :=
  if_pos h

theorem follow_of_passed (hSource : m.source = s.source) (hOld : s.sequence ≤ m.latest) :
    m.follow s = m := by
  rw [follow, if_neg (not_not.mpr hSource), if_pos hOld]

theorem source_follow (m : PartitionState) (s : Position) : (m.follow s).source = s.source := by
  unfold follow
  split_ifs with hSource
  · rfl
  · exact not_not.mp hSource
  · exact not_not.mp hSource

theorem sequence_le_follow (m : PartitionState) (s : Position) :
    s.sequence ≤ (m.follow s).latest := by
  unfold follow
  split_ifs with hSource hOld
  · exact le_refl _
  · exact hOld
  · exact le_refl _

theorem latest_le_follow (hSource : m.source = s.source) : m.latest ≤ (m.follow s).latest := by
  unfold follow
  split_ifs with hOther hOld
  · exact absurd hSource hOther
  · exact le_refl _
  · exact le_of_not_ge hOld

/-- What several positions make of a partition. -/
def followAll (m : PartitionState) (told : List Position) : PartitionState :=
  told.foldl follow m

/-- As long as one source speaks, every number that it tells is passed in the end. -/
theorem passed_followAll (hSource : ∀ s ∈ told, s.source = m.source) :
    (m.followAll told).source = m.source ∧ m.latest ≤ (m.followAll told).latest ∧
      ∀ s ∈ told, s.sequence ≤ (m.followAll told).latest := by
  induction told generalizing m with
  | nil => exact ⟨rfl, le_refl _, fun s hm => absurd hm List.not_mem_nil⟩
  | cons first rest ih =>
      have hFirst := hSource first List.mem_cons_self
      have hNext := (m.source_follow first).trans hFirst
      have hRest : ∀ s ∈ rest, s.source = (m.follow first).source := fun s hm =>
        (hSource s (List.mem_cons_of_mem _ hm)).trans hNext.symm
      obtain ⟨hSame, hLatest, hPassed⟩ := ih hRest
      refine ⟨hSame.trans hNext, le_trans (latest_le_follow hFirst.symm) hLatest, fun s hm => ?_⟩
      rcases List.mem_cons.mp hm with rfl | hm
      · exact le_trans (m.sequence_le_follow s) hLatest
      · exact hPassed s hm

theorem followAll_of_passed (h : ∀ s ∈ told, m.source = s.source ∧ s.sequence ≤ m.latest) :
    m.followAll told = m := by
  induction told with
  | nil => rfl
  | cons first rest ih =>
      obtain ⟨hSource, hOld⟩ := h first List.mem_cons_self
      have hRest := ih fun s hm => h s (List.mem_cons_of_mem _ hm)
      rw [followAll, List.foldl_cons, follow_of_passed hSource hOld]
      exact hRest

/-- A change of source forgets what was known, so two partitions with one source that are told of
another end up the same. -/
theorem followAll_of_rotation (hSource : m.source = m'.source)
    (hOther : ∃ s ∈ told, s.source ≠ m.source) : m.followAll told = m'.followAll told := by
  induction told generalizing m m' with
  | nil => exact absurd hOther (by simp)
  | cons first rest ih =>
      by_cases hFirst : first.source = m.source
      · have hRest : ∃ s ∈ rest, s.source ≠ (m.follow first).source := by
          obtain ⟨s, hm, hDiffers⟩ := hOther
          rcases List.mem_cons.mp hm with rfl | hm
          · exact absurd hFirst hDiffers
          · exact ⟨s, hm, by rwa [source_follow, hFirst]⟩
        exact ih ((m.source_follow first).trans (m'.source_follow first).symm) hRest
      · have hSame : m.follow first = m'.follow first := by
          rw [follow_of_other (Ne.symm hFirst), follow_of_other (hSource ▸ Ne.symm hFirst)]
        rw [followAll, followAll, List.foldl_cons, List.foldl_cons, hSame]

/-- Positions that are told again in the same order change nothing. -/
theorem followAll_followAll (m : PartitionState) (told : List Position) :
    (m.followAll told).followAll told = m.followAll told := by
  cases told with
  | nil => rfl
  | cons first rest =>
      -- After the first position, both times have its source; what matters is if it ever leaves.
      by_cases hOther : ∃ s ∈ rest, s.source ≠ first.source
      · have hSame := (m.source_follow first).trans
          ((m.followAll (first :: rest)).source_follow first).symm
        rw [← source_follow m first] at hOther
        exact (followAll_of_rotation hSame hOther).symm
      · have hOne : ∀ s ∈ rest, s.source = (m.follow first).source := by
          intro s hm
          rw [source_follow]
          exact by_contra fun hDiffers => hOther ⟨s, hm, hDiffers⟩
        obtain ⟨hSource, hLatest, hPassed⟩ := passed_followAll hOne
        refine followAll_of_passed fun s hm => ?_
        rcases List.mem_cons.mp hm with rfl | hm
        · exact ⟨hSource.trans (m.source_follow s), le_trans (m.sequence_le_follow s) hLatest⟩
        · exact ⟨hSource.trans (hOne s hm).symm, hPassed s hm⟩

end PartitionState

namespace Tracker

/-- What some positions make of what is known of a partition, if anything is. -/
def followKnown (known : Option PartitionState) : List Position → Option PartitionState
  | [] => known
  | told => some ((known.getD .initial).followAll told)

theorem followKnown_cons (known : Option PartitionState) (first : Position) (rest : List Position) :
    followKnown known (first :: rest) =
      followKnown (some ((known.getD .initial).follow first)) rest := by
  cases rest <;> rfl

theorem followKnown_followKnown (known : Option PartitionState) (told : List Position) :
    followKnown (followKnown known told) told = followKnown known told := by
  cases told with
  | nil => rfl
  | cons first rest =>
      exact congrArg some (PartitionState.followAll_followAll (known.getD .initial) (first :: rest))

section Runs

variable {t : Tracker} {positions : List Position}

/-- Positions in range cause no fault, and each moves its own partition. -/
theorem observeAll_ok (hTracker : t.Nonnegative)
    (hRange : ∀ s ∈ positions, 0 ≤ s.sequence ∧ s.sequence ≤ maxSequence) :
    ∃ t', t.observeAll positions = (t', .ok ()) ∧ t'.Nonnegative ∧ t'.tolerance = t.tolerance ∧
      ∀ p, t'.partitions[p]? =
        followKnown t.partitions[p]? (positions.filter fun s => s.partition = p) := by
  induction positions generalizing t with
  | nil => exact ⟨t, rfl, hTracker, rfl, fun _ => rfl⟩
  | cons first rest ih =>
      obtain ⟨hNonneg, hMax⟩ := hRange first List.mem_cons_self
      have hSeen := PartitionState.observe_eq_follow (hTracker.state first.partition) hMax
      have hNext : (t.setState first.partition ((t.state first.partition).follow first)).Nonnegative :=
        hTracker.setState first.partition
          (le_trans hNonneg (PartitionState.sequence_le_follow _ first))
      obtain ⟨t', hRun, hAfter, hTolerance, hKnown⟩ :=
        ih hNext fun s hm => hRange s (List.mem_cons_of_mem _ hm)
      refine ⟨t', ?_, hAfter, hTolerance, fun p => ?_⟩
      · rw [observeAll, observe, hSeen]
        exact hRun
      · rw [hKnown, getElem?_setState]
        by_cases hOwn : first.partition = p
        · subst hOwn
          rw [if_pos rfl, List.filter_cons, if_pos (decide_eq_true rfl), followKnown_cons]
          rfl
        · rw [if_neg hOwn, List.filter_cons_of_neg (by simpa using hOwn)]

theorem observeAll_append {t t' : Tracker} {positions : List Position}
    (h : t.observeAll positions = (t', .ok ())) (more : List Position) :
    t.observeAll (positions ++ more) = t'.observeAll more := by
  induction positions generalizing t with
  | nil =>
      cases h
      rfl
  | cons first rest ih =>
      rw [observeAll] at h
      rw [List.cons_append, observeAll]
      cases hSeen : t.observe first with
      | error fault => simp [hSeen] at h
      | ok next =>
          rw [hSeen] at h
          exact ih h

/-- Positions that are told again in the same order leave the tracker as it is. -/
theorem observeAll_again (hTracker : t.Nonnegative)
    (hRange : ∀ s ∈ positions, 0 ≤ s.sequence ∧ s.sequence ≤ maxSequence) :
    ∃ t', t.observeAll positions = (t', .ok ()) ∧ t'.observeAll positions = (t', .ok ()) := by
  obtain ⟨t', hFirst, hNonneg, -, hKnown⟩ := observeAll_ok hTracker hRange
  obtain ⟨t'', hSecond, -, hTolerance, hAgain⟩ := observeAll_ok hNonneg hRange
  have hPartitions : t''.partitions = t'.partitions := by
    refine Std.ExtTreeMap.ext_getElem? fun p => ?_
    rw [hAgain, hKnown, followKnown_followKnown]
  have hSame : t'' = t' := by
    cases t''
    cases t'
    cases hTolerance
    cases hPartitions
    rfl
  exact ⟨t', hFirst, hSame ▸ hSecond⟩

end Runs

end Tracker

end NearCache
