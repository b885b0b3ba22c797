import NearCache.Proofs.Store.Recency

/-!
Expiry under any pattern of reads. The age of an entry counts from its creation, its idleness from
the last read, and instants may lie in any order. Whether a read finds the entry depends on the
instants of the reads of its key and on nothing else.
-/

namespace NearCache

/-- So much time is within a limit. A limit that is absent or too long to be counted is never passed. -/
def Within (limit : Option Duration) (elapsed : Int) : Prop :=
  ∀ d, limit = some d → d.toNanos ≤ longestLimit → elapsed ≤ d.toNanos

theorem isOver_eq_false_iff {since now : Instant} {limit : Option Duration} :
    isOver since now limit = false ↔ Within limit (now - since) := by
  unfold isOver Within
  cases limit with
  | none => simp
  | some d => simp

/-- A read at this instant is within both limits, for an entry created and last read at those. -/
structure Limits.Allow (limits : Limits) (created last now : Instant) : Prop where
  live : Within limits.timeToLive (now - created)
  idle : Within limits.maxIdle (now - last)

/-- Reads at these instants, in order, are all within the limits. Each counts as the last one for the
next. -/
def Limits.AllowAll (limits : Limits) (created : Instant) : Instant → List Instant → Prop
  | _, [] => True
  | last, now :: rest => limits.Allow created last now ∧ limits.AllowAll created now rest

theorem Limits.allowAll_concat {limits : Limits} {created last now : Instant}
    (times : List Instant) :
    limits.AllowAll created last (times ++ [now]) ↔
      limits.AllowAll created last times ∧ limits.Allow created (times.getLastD last) now := by
  induction times generalizing last with
  | nil => simp [AllowAll]
  | cons first rest ih => rw [List.cons_append, AllowAll, ih, AllowAll, and_assoc, List.getLastD_cons]

namespace Entry

variable {ν : Type} (e : Entry ν) (times : List Instant)

/-- The entry after reads at several instants. -/
def readAll : Entry ν :=
  times.foldl read e

theorem readAll_concat (now : Instant) : e.readAll (times ++ [now]) = (e.readAll times).read now := by
  simp [readAll]

theorem created_readAll : (e.readAll times).created = e.created := by
  induction times generalizing e with
  | nil => rfl
  | cons first rest ih => exact ih (e.read first)

theorem value_readAll : (e.readAll times).value = e.value := by
  induction times generalizing e with
  | nil => rfl
  | cons first rest ih => exact ih (e.read first)

theorem accessed_readAll : (e.readAll times).accessed = times.getLastD e.accessed := by
  induction times generalizing e with
  | nil => rfl
  | cons first rest ih => exact (ih (e.read first)).trans (List.getLastD_cons ..).symm

theorem isExpired_eq_false_iff {e : Entry ν} {limits : Limits} {now : Instant} :
    e.isExpired now limits.timeToLive limits.maxIdle = false ↔
      limits.Allow e.created e.accessed now := by
  rw [isExpired, Bool.or_eq_false_iff, isOver_eq_false_iff, isOver_eq_false_iff]
  exact ⟨fun h => ⟨h.1, h.2⟩, fun h => ⟨h.live, h.idle⟩⟩

end Entry

namespace Store

variable {ν : Type}

/-- The store without a slot that a read found expired. -/
def expire (s : Store ν) (key : Data) : Store ν :=
  { s with
    slots := s.slots.remove key
    counters.misses := s.counters.misses + 1
    counters.expirations := s.counters.expirations + 1 }

/-- The instant at which a call reads this key. -/
def Call.readOf? (key : Data) : Call ν → Option Instant
  | .get other now => if other = key then some now else none
  | _ => none

/-- The instants at which this key is read, in order. -/
def readsOf (key : Data) (calls : List (Call ν)) : List Instant :=
  calls.filterMap (Call.readOf? key)

/-- The step reads this key and finds nothing. -/
def Misses (key : Data) : Store ν × Call ν → Prop
  | (s, .get other now) => other = key ∧ (s.get other now).2 = none
  | _ => False

instance (key : Data) : DecidablePred (@Misses ν key)
  | (s, .get other now) => inferInstanceAs (Decidable (other = key ∧ (s.get other now).2 = none))
  | (_, .put ..) | (_, .reserve ..) | (_, .publish ..) | (_, .cancel ..) | (_, .invalidate _)
  | (_, .invalidateAll) | (_, .clear) | (_, .track _) => isFalse id

/-- Nothing but reads concerns this key: the step is a read, or is about another key and does not
evict this one. -/
def OnlyReads (key : Data) : Store ν × Call ν → Prop
  | (_, .get ..) | (_, .track _) => True
  | (s, .put other _ _ _ draw) | (s, .reserve other _ draw) =>
    other ≠ key ∧ s.evictee? other draw ≠ some key
  | (_, .publish other ..) | (_, .cancel other _) | (_, .invalidate other) => other ≠ key
  | (_, .invalidateAll) | (_, .clear) => False

instance (key : Data) : DecidablePred (@OnlyReads ν key)
  | (_, .get ..) | (_, .track _) => isTrue trivial
  | (s, .put other _ _ _ draw) | (s, .reserve other _ draw) =>
    inferInstanceAs (Decidable (other ≠ key ∧ s.evictee? other draw ≠ some key))
  | (_, .publish other ..) | (_, .cancel other _) | (_, .invalidate other) =>
    inferInstanceAs (Decidable (other ≠ key))
  | (_, .invalidateAll) | (_, .clear) => isFalse id

/-- An entry that the step finds under this key does not have a stale stamp. -/
def NotStale (key : Data) (step : Store ν × Call ν) : Prop :=
  ∀ e, step.1.peek key = some e → step.1.tracker.isStale e.stamp = false

instance (key : Data) : DecidablePred (@NotStale ν key) := fun step =>
  inferInstanceAs (Decidable (∀ e ∈ step.1.peek key, step.1.tracker.isStale e.stamp = false))

section Reads

variable {s : Store ν} {key : Data} {e : Entry ν} {now : Instant}

theorem get_of_absent (h : s.slots.state? key = none) :
    s.get key now = ({ s with counters.misses := s.counters.misses + 1 }, none) := by
  have hEntry : s.slots.entry? key = none := by rw [Slots.entry?, h]
  have hReading : s.reading key now = .absent := by rw [reading, hEntry]
  rw [get, hReading]

theorem get_of_allowed (hEntry : s.peek key = some e) (hStamp : s.tracker.isStale e.stamp = false)
    (hAllowed : s.limits.Allow e.created e.accessed now) :
    s.get key now =
      ({ s with
          slots := s.slots.insert key (.ready (e.read now))
          counters.hits := s.counters.hits + 1 }, some e.value) := by
  have hReading : s.reading key now = .hit e := by
    rw [reading, show s.slots.entry? key = some e from hEntry]
    simp [Entry.isExpired_eq_false_iff.mpr hAllowed, hStamp]
  rw [get, hReading]

theorem get_of_not_allowed (hEntry : s.peek key = some e)
    (hOver : ¬s.limits.Allow e.created e.accessed now) : s.get key now = (s.expire key, none) := by
  have hExpired : e.isExpired now s.limits.timeToLive s.limits.maxIdle = true :=
    Bool.not_eq_false _ ▸ mt Entry.isExpired_eq_false_iff.mp hOver
  have hReading : s.reading key now = .expired := by
    rw [reading, show s.slots.entry? key = some e from hEntry]
    simp [hExpired]
  rw [get, hReading]
  rfl

/-- A call that is not a read of the key leaves its slot as it is. -/
theorem state?_of_onlyReads {call : Call ν} (h : OnlyReads key (s, call))
    (hOther : call.readOf? key = none) :
    (s.perform call).slots.state? key = s.slots.state? key := by
  cases call with
  | put other value stamp now draw =>
      rw [perform, state?_put, if_neg h.1, if_neg h.2]
  | reserve other stamp draw =>
      cases hAnswer : (s.reserve other stamp draw).2 with
      | none => rw [perform, (s.reserve_of_refused other hAnswer).1]
      | some id =>
          obtain ⟨-, -, -, hRest⟩ := s.reserve_of_granted other hAnswer
          rw [perform, hRest, if_neg h.1, if_neg h.2]
  | publish other id value now =>
      cases hAnswer : (s.publish other id value now).2 with
      | false => rw [perform, s.publish_of_refused other hAnswer]
      | true =>
          obtain ⟨stamp, -, hRest⟩ := s.state?_publish other key hAnswer
          rw [perform, hRest, if_neg h]
  | cancel other id => rw [perform, state?_cancel, if_neg fun hCancelled => h hCancelled.1]
  | get other now =>
      have hKey : other ≠ key := fun hKey => by simp [Call.readOf?, hKey] at hOther
      exact (s.state?_get other key now).resolve_right fun hRead => hKey hRead.1
  | invalidate other => rw [perform, state?_invalidate, if_neg h]
  | invalidateAll => exact absurd h id
  | clear => exact absurd h id
  | track tracker => rfl

theorem Call.eq_get_of_readOf? {call : Call ν} (h : call.readOf? key = some now) :
    call = .get key now := by
  cases call with
  | get other at_ =>
      simp only [Call.readOf?] at h
      split_ifs at h with hKey
      cases h
      rw [hKey]
  | _ => cases h

theorem not_misses_of_other {call : Call ν} (h : call.readOf? key = none) :
    ¬Misses key (s, call) := by
  cases call with
  | get other now =>
      rintro ⟨hKey, -⟩
      simp [Call.readOf?, hKey] at h
  | _ => exact id

end Reads

section Runs

variable {s : Store ν} {key : Data} {e : Entry ν}

theorem readsOf_concat (calls : List (Call ν)) (call : Call ν) :
    readsOf key (calls ++ [call]) = readsOf key calls ++ (call.readOf? key).toList := by
  rw [readsOf, List.filterMap_append, readsOf]
  cases hRead : call.readOf? key <;> simp [hRead]

/-- As long as every read of the key has found its entry, the entry is there, marked with all these
reads, and they were all allowed. From the first one that has not, the key has no slot. -/
structure Outlives (s : Store ν) (key : Data) (e : Entry ν) (calls : List (Call ν)) : Prop where
  kept : (∀ step ∈ s.steps calls, ¬Misses key step) →
    (s.run calls).peek key = some (e.readAll (readsOf key calls))
  gone : (∃ step ∈ s.steps calls, Misses key step) → (s.run calls).slots.state? key = none
  allowed : (∀ step ∈ s.steps calls, ¬Misses key step) ↔
    s.limits.AllowAll e.created e.accessed (readsOf key calls)

/-- A read of an entry that has outlived all reads so far finds it if it is allowed, and removes it if
it is not. -/
theorem Outlives.get_cases {calls : List (Call ν)} {now : Instant} (h : Outlives s key e calls)
    (hStamp : NotStale key (s.run calls, .get key now))
    (hKept : ∀ step ∈ s.steps calls, ¬Misses key step) :
    let t := s.run calls
    let last := (readsOf key calls).getLastD e.accessed
    (s.limits.Allow e.created last now ∧ (t.get key now).2 = some e.value ∧
      (t.get key now).1.peek key = some (e.readAll (readsOf key calls ++ [now]))) ∨
    (¬s.limits.Allow e.created last now ∧ t.get key now = (t.expire key, none)) := by
  intro t last
  have hEntry := h.kept hKept
  have hAllow : t.limits.Allow (e.readAll (readsOf key calls)).created
      (e.readAll (readsOf key calls)).accessed now ↔ s.limits.Allow e.created last now := by
    rw [Entry.created_readAll, Entry.accessed_readAll, limits_run]
  by_cases hAllowed : s.limits.Allow e.created last now
  · have hGet := get_of_allowed hEntry (hStamp _ hEntry) (hAllow.mpr hAllowed)
    refine Or.inl ⟨hAllowed, ?_, ?_⟩
    · rw [hGet, Entry.value_readAll]
    · rw [hGet, Entry.readAll_concat, peek, Slots.entry?_eq_some_iff, Slots.state?_insert, if_pos rfl]
  · exact Or.inr ⟨hAllowed, get_of_not_allowed hEntry (mt hAllow.mp hAllowed)⟩

theorem state?_expire (s : Store ν) (key : Data) : (s.expire key).slots.state? key = none :=
  (s.slots.state?_remove key key).trans (if_pos rfl)

theorem outlives_nil (hEntry : s.peek key = some e) : Outlives s key e [] where
  kept _ := hEntry
  gone := by
    rintro ⟨step, ⟨⟩, -⟩
  allowed := iff_of_true (by rintro step ⟨⟩) trivial

/-- A call that is not a read of the key changes nothing for its entry. -/
theorem Outlives.skip {calls : List (Call ν)} {call : Call ν} (h : Outlives s key e calls)
    (hCall : OnlyReads key (s.run calls, call)) (hOther : call.readOf? key = none) :
    Outlives s key e (calls ++ [call]) := by
  have hSame : (s.run (calls ++ [call])).slots.state? key = (s.run calls).slots.state? key := by
    rw [run, History.run_concat]
    exact state?_of_onlyReads hCall hOther
  have hReads : readsOf key (calls ++ [call]) = readsOf key calls := by
    rw [readsOf_concat, hOther]
    exact List.append_nil _
  have hSteps : s.steps (calls ++ [call]) = s.steps calls ++ [(s.run calls, call)] :=
    History.steps_concat perform s calls call
  have hMisses : (∀ step ∈ s.steps (calls ++ [call]), ¬Misses key step) ↔
      ∀ step ∈ s.steps calls, ¬Misses key step := by
    rw [hSteps, List.forall_mem_append, List.forall_mem_singleton]
    exact and_iff_left (not_misses_of_other hOther)
  refine ⟨fun hKept => ?_, fun hGone => ?_, ?_⟩
  · rw [hReads, peek, Slots.entry?, hSame]
    exact h.kept (hMisses.mp hKept)
  · rw [hSame]
    refine h.gone ?_
    contrapose! hGone
    exact hMisses.mpr hGone
  · rw [hMisses, hReads]
    exact h.allowed

theorem Outlives.read {calls : List (Call ν)} {now : Instant} (h : Outlives s key e calls)
    (hStamp : NotStale key (s.run calls, .get key now)) :
    Outlives s key e (calls ++ [.get key now]) := by
  have hRun : s.run (calls ++ [.get key now]) = ((s.run calls).get key now).1 :=
    History.run_concat perform s calls (.get key now)
  have hReads : readsOf key (calls ++ [.get key now]) = readsOf key calls ++ [now] := by
    simp [readsOf_concat, Call.readOf?]
  have hSteps : s.steps (calls ++ [.get key now]) = s.steps calls ++ [(s.run calls, .get key now)] :=
    History.steps_concat perform s calls (.get key now)
  by_cases hKept : ∀ step ∈ s.steps calls, ¬Misses key step
  · rcases h.get_cases hStamp hKept with ⟨hAllowed, hFound, hEntry⟩ | ⟨hOver, hGet⟩
    · have hHit : ∀ step ∈ s.steps (calls ++ [.get key now]), ¬Misses key step := by
        rw [hSteps, List.forall_mem_append, List.forall_mem_singleton]
        exact ⟨hKept, fun hMiss => by cases hFound.symm.trans hMiss.2⟩
      refine ⟨fun _ => ?_, fun ⟨step, hm, hMiss⟩ => absurd hMiss (hHit step hm), ?_⟩
      · rw [hRun, hReads, hEntry]
      · rw [hReads, Limits.allowAll_concat]
        exact iff_of_true hHit ⟨h.allowed.mp hKept, hAllowed⟩
    · have hMiss : Misses key (s.run calls, .get key now) := ⟨rfl, by rw [hGet]⟩
      have hLast : (s.run calls, Call.get key now) ∈ s.steps (calls ++ [.get key now]) := by
        rw [hSteps]
        exact List.mem_append_right _ (List.mem_singleton_self _)
      refine ⟨fun hAll => absurd hMiss (hAll _ hLast), fun _ => ?_, ?_⟩
      · rw [hRun, hGet]
        exact state?_expire _ key
      · rw [hReads, Limits.allowAll_concat]
        exact iff_of_false (fun hAll => hAll _ hLast hMiss) fun hAllowed => hOver hAllowed.2
  · have hBefore : ∃ step ∈ s.steps calls, Misses key step := by
      by_contra hNone
      exact hKept fun step hm hMiss => hNone ⟨step, hm, hMiss⟩
    have hMore : ∃ step ∈ s.steps (calls ++ [.get key now]), Misses key step := by
      obtain ⟨step, hm, hMiss⟩ := hBefore
      exact ⟨step, hSteps ▸ List.mem_append_left _ hm, hMiss⟩
    refine ⟨fun hAll => ?_, fun _ => ?_, ?_⟩
    · obtain ⟨step, hm, hMiss⟩ := hMore
      exact absurd hMiss (hAll step hm)
    · rw [hRun, get_of_absent (h.gone hBefore)]
      exact h.gone hBefore
    · rw [hReads, Limits.allowAll_concat]
      refine iff_of_false (fun hAll => ?_) fun hAllowed => hKept (h.allowed.mpr hAllowed.1)
      obtain ⟨step, hm, hMiss⟩ := hMore
      exact hAll step hm hMiss

theorem outlives_run (hEntry : s.peek key = some e) {calls : List (Call ν)}
    (hCalls : ∀ step ∈ s.steps calls, OnlyReads key step ∧ NotStale key step) :
    Outlives s key e calls := by
  induction calls using List.reverseRecOn with
  | nil => exact outlives_nil hEntry
  | append_singleton calls call ih =>
      rw [steps, History.steps_concat, ← steps, ← run, List.forall_mem_append,
        List.forall_mem_singleton] at hCalls
      have hBefore := ih hCalls.1
      cases hRead : call.readOf? key with
      | none => exact hBefore.skip hCalls.2.1 hRead
      | some now =>
          obtain rfl := Call.eq_get_of_readOf? hRead
          exact hBefore.read hCalls.2.2

end Runs

/-- Expiry of an entry over any pattern of reads, as long as nothing else concerns its key and its
stamp is not stale. A read finds the value if and only if all earlier reads of the key did, no more
time than the entry may live has passed since its creation, and no more than it may be idle since the
read before, or since its creation. Instants may go forwards or backwards. The first read that does not
removes the slot and counts one expiration and one miss. So no pattern of reads outlasts the time to
live, and only the instants of the reads of this key matter. -/
theorem expiry_over_reads {s : Store ν} {key : Data} {value : ν} {stamp : Position}
    {created : Instant} (hCreated : s.peek key = some (.create key value stamp created))
    {calls : List (Call ν)}
    (hCalls : ∀ step ∈ s.steps calls, OnlyReads key step ∧ NotStale key step)
    {before after : List (Call ν)} {now : Instant} (hRead : calls = before ++ .get key now :: after) :
    let t := s.run before
    let allHit := ∀ step ∈ s.steps before, ¬Misses key step
    let last := (readsOf key before).getLastD created
    let timely := Within s.limits.timeToLive (now - created) ∧ Within s.limits.maxIdle (now - last)
    ((t.get key now).2 = some value ↔ allHit ∧ timely) ∧
      ((t.get key now).2 = none ↔ ¬(allHit ∧ timely)) ∧
      (allHit → ¬timely → t.get key now = (t.expire key, none)) ∧
      (¬Within s.limits.timeToLive (now - created) → (t.get key now).2 = none) ∧
      ((t.get key now).2 = some value ↔
        s.limits.AllowAll created created (readsOf key before ++ [now])) := by
  intro t allHit last timely
  rw [hRead, steps, History.steps_append, ← steps, ← run, List.forall_mem_append] at hCalls
  obtain ⟨hBefore, hRest⟩ := hCalls
  have hStamp : NotStale key (t, .get key now) := (hRest _ List.mem_cons_self).2
  have hLived := outlives_run hCreated hBefore
  have hTimely : timely ↔ s.limits.Allow created last now := ⟨fun h => ⟨h.1, h.2⟩, fun h => ⟨h.1, h.2⟩⟩
  have hAnswer : ((t.get key now).2 = some value ∧ allHit ∧ timely) ∨
      ((t.get key now).2 = none ∧ ¬(allHit ∧ timely)) := by
    by_cases hHit : allHit
    · rcases hLived.get_cases hStamp hHit with ⟨hAllowed, hFound, -⟩ | ⟨hOver, hGet⟩
      · exact Or.inl ⟨hFound, hHit, hTimely.mpr hAllowed⟩
      · exact Or.inr ⟨congrArg Prod.snd hGet, fun h => hOver (hTimely.mp h.2)⟩
    · have hGone : t.slots.state? key = none := by
        refine hLived.gone ?_
        by_contra hNone
        exact hHit fun step hm hMiss => hNone ⟨step, hm, hMiss⟩
      exact Or.inr ⟨congrArg Prod.snd (get_of_absent hGone), fun h => hHit h.1⟩
  have hFinds : (t.get key now).2 = some value ↔ allHit ∧ timely := by
    rcases hAnswer with ⟨hFound, h⟩ | ⟨hNone, h⟩
    · exact iff_of_true hFound h
    · exact iff_of_false (by simp [hNone]) h
  have hMisses : (t.get key now).2 = none ↔ ¬(allHit ∧ timely) := by
    rcases hAnswer with ⟨hFound, h⟩ | ⟨hNone, h⟩
    · exact iff_of_false (by simp [hFound]) (not_not.mpr h)
    · exact iff_of_true hNone h
  refine ⟨hFinds, hMisses, fun hHit hLate => ?_, fun hOld => ?_, ?_⟩
  · rcases hLived.get_cases hStamp hHit with ⟨hAllowed, -⟩ | ⟨-, hGet⟩
    · exact absurd (hTimely.mpr hAllowed) hLate
    · exact hGet
  · exact hMisses.mpr fun h => hOld h.2.1
  · rw [hFinds, hTimely, Limits.allowAll_concat]
    exact and_congr_left' hLived.allowed

/-- An entry that may be idle for three nanoseconds and live for ten, read on a clock that goes back
once. It is found as long as it has lived for ten, and not when it has for eleven, although it was
idle for one only. -/
theorem expiry_over_reads_with_clock_going_back :
    let key : Data := ⟨[7]⟩
    let other : Data := ⟨[8]⟩
    let limits : Limits := ⟨2, .lru, some ⟨0, 10⟩, some ⟨0, 3⟩⟩
    let s := ((empty limits (.empty 0)).put key 5 ⟨0, 0, 0⟩ 100 0).1
    let before : List (Call Nat) :=
      [.get key 103, .put other 6 ⟨0, 0, 0⟩ 104 0, .get key 101, .get other 250, .get key 104,
        .get key 107, .get key 110]
    (∀ step ∈ s.steps (before ++ [.get key 111]), OnlyReads key step ∧ NotStale key step) ∧
      (∀ step ∈ s.steps before, ¬Misses key step) ∧
      (s.run before).get key 111 = ((s.run before).expire key, none) := by
  intro key other limits s before
  have hCalls : ∀ step ∈ s.steps (before ++ [.get key 111]),
      OnlyReads key step ∧ NotStale key step := by
    decide
  have hCreated : s.peek key = some (.create key 5 ⟨0, 0, 0⟩ 100) := by decide
  have hFound : ∀ step ∈ s.steps before, ¬Misses key step := by decide
  have hRead : before ++ [.get key 111] = before ++ .get key 111 :: [] := rfl
  obtain ⟨-, -, hOver, -⟩ := expiry_over_reads hCreated hCalls hRead
  refine ⟨hCalls, hFound, hOver hFound fun hTimely => ?_⟩
  exact absurd (hTimely.1 _ rfl (by decide)) (by decide)

end Store

end NearCache
