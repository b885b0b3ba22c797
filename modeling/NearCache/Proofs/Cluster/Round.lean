import NearCache.Cluster.Round

/-!
Rounds leave the listeners of a cluster alone, and ask every member once. A round in which no member
breaks down begins, and can be polled at any instant.
-/

namespace NearCache

/-- Two clusters that differ at most in their members, their version and their log. -/
def Cluster.SameListeners (c c' : Cluster) : Prop :=
  c'.registrations = c.registrations ∧ c'.bindings = c.bindings ∧
    c'.nextRegistration = c.nextRegistration ∧ c'.faults = c.faults

namespace Cluster

theorem SameListeners.trans {c c' c'' : Cluster} (h : c.SameListeners c')
    (h' : c'.SameListeners c'') : c.SameListeners c'' :=
  ⟨h'.1.trans h.1, h'.2.1.trans h.2.1, h'.2.2.1.trans h.2.2.1, h'.2.2.2.trans h.2.2.2⟩

theorem sameListeners_receive (c : Cluster) (request : Request) :
    c.SameListeners (c.receive request) :=
  ⟨rfl, rfl, rfl, rfl⟩

end Cluster

/-- No member that was asked breaks down. -/
def Round.Steady (r : Round) : Prop :=
  ∀ call ∈ r.calls, call.breaksDown = false

theorem Call.poll_steady {call : Call} (h : call.breaksDown = false) (c : Cluster)
    (now deadline : Nat) (limit : Duration) :
    ∃ call', call.poll c now deadline limit = .ok call' ∧ call'.breaksDown = false := by
  have hStands : ¬call.breaksDown = true := by simp [h]
  unfold poll
  by_cases hDone : call.isDone
  · exact ⟨call, if_pos hDone, h⟩
  rw [if_neg hDone]
  by_cases hDue : call.due ≤ now
  · rw [if_pos hDue, if_neg hStands]
    exact ⟨_, rfl, h⟩
  rw [if_neg hDue]
  by_cases hLate : deadline ≤ now
  · rw [if_pos hLate]
    exact ⟨_, rfl, h⟩
  · rw [if_neg hLate]
    exact ⟨call, rfl, h⟩

/-- Whom a call is for, and what it asks. -/
def Call.target (call : Call) : Nat × Request :=
  (call.place, call.request)

/-- A reply changes nothing about whom a call is for. -/
theorem Call.target_of_poll {call call' : Call} {c : Cluster} {now deadline : Nat}
    {limit : Duration} (h : call.poll c now deadline limit = .ok call') :
    call'.target = call.target := by
  unfold poll at h
  split at h
  · cases h
    rfl
  · split at h
    · split at h
      · cases h
      · cases h
        rfl
    · split at h <;> (cases h; rfl)

/-- A round asks every member of so many for its report on some names. -/
def Round.Asks (r : Round) (members : Nat) (names : List String) : Prop :=
  r.calls.map Call.target = (List.range members).map (·, .fetchMetadata names)

theorem Round.Asks.poll {r r' : Round} {members : Nat} {names : List String}
    (h : r.Asks members names) {c : Cluster} {now : Nat} (hPolled : r.poll c now = .ok r') :
    r'.Asks members names := by
  have hCalls : ∀ calls calls' : List Call,
      calls.mapM (Call.poll c now r.deadline r.limit) = .ok calls' →
        calls'.map Call.target = calls.map Call.target := by
    intro calls
    induction calls with
    | nil =>
        rintro calls' ⟨⟩
        rfl
    | cons call rest ih =>
        intro calls' hAll
        rw [List.mapM_cons] at hAll
        cases hFirst : call.poll c now r.deadline r.limit with
        | error fault =>
            rw [hFirst] at hAll
            cases hAll
        | ok call' =>
            cases hRest : rest.mapM (Call.poll c now r.deadline r.limit) with
            | error fault =>
                rw [hFirst, hRest] at hAll
                cases hAll
            | ok rest' =>
                rw [hFirst, hRest] at hAll
                cases hAll
                rw [List.map_cons, List.map_cons, Call.target_of_poll hFirst, ih rest' hRest]
  rw [Round.poll] at hPolled
  cases hAll : r.calls.mapM (Call.poll c now r.deadline r.limit) with
  | error fault =>
      rw [hAll] at hPolled
      cases hPolled
  | ok calls' =>
      rw [hAll] at hPolled
      cases hPolled
      exact (hCalls r.calls calls' hAll).trans h

/-- What comes of every element comes of the whole list. -/
theorem exists_mapM_ok {α β ε : Type} {f : α → Except ε β} {P : β → Prop} {xs : List α}
    (h : ∀ x ∈ xs, ∃ y, f x = .ok y ∧ P y) : ∃ ys, xs.mapM f = .ok ys ∧ ∀ y ∈ ys, P y := by
  induction xs with
  | nil => exact ⟨[], rfl, by simp⟩
  | cons x xs ih =>
      rw [List.forall_mem_cons] at h
      obtain ⟨y, hFirst, hFirst'⟩ := h.1
      obtain ⟨ys, hRest, hRest'⟩ := ih h.2
      refine ⟨y :: ys, ?_, List.forall_mem_cons.mpr ⟨hFirst', hRest'⟩⟩
      rw [List.mapM_cons, hFirst, hRest]
      rfl

theorem Round.Steady.poll {r : Round} (h : r.Steady) (c : Cluster) (now : Nat) :
    ∃ r', r.poll c now = .ok r' ∧ r'.Steady := by
  obtain ⟨calls', hPolled, hSteady⟩ :=
    exists_mapM_ok fun call hm => Call.poll_steady (h call hm) c now r.deadline r.limit
  refine ⟨{ r with calls := calls' }, ?_, hSteady⟩
  rw [Round.poll, hPolled]
  rfl

namespace Cluster

variable {c : Cluster}

theorem sameListeners_askAll (c : Cluster) (now deadline : Nat) (limit : Duration)
    (request : Request) (places : List Nat) :
    c.SameListeners (c.askAll now deadline limit request places).1 := by
  induction places generalizing c with
  | nil => exact ⟨rfl, rfl, rfl, rfl⟩
  | cons place rest ih =>
      have hAsked := c.sameListeners_receive request
      cases hPolled :
          (c.ask now place request).2.poll (c.ask now place request).1 now deadline limit with
      | error fault =>
          simp only [askAll, hPolled]
          exact hAsked
      | ok call =>
          simp only [askAll, hPolled]
          exact hAsked.trans (ih (c.ask now place request).1)

theorem sameListeners_beginRound (c : Cluster) (now : Nat) (names : List String)
    (limit : Duration) : c.SameListeners (c.beginRound now names limit).1 :=
  c.sameListeners_askAll now (now + limit.toTicks) limit _ _

theorem askAll_steady (h : c.faults.breakDown = false) (now deadline : Nat) (limit : Duration)
    (request : Request) (places : List Nat) :
    ∃ calls, (c.askAll now deadline limit request places).2 = .ok calls ∧
      ∀ call ∈ calls, call.breaksDown = false := by
  induction places generalizing c with
  | nil => exact ⟨[], rfl, by simp⟩
  | cons place rest ih =>
      have hAsked : (c.ask now place request).2.breaksDown = false := h
      obtain ⟨call, hPolled, hSteady⟩ :=
        Call.poll_steady hAsked (c.ask now place request).1 now deadline limit
      obtain ⟨calls, hRest, hSteady'⟩ := ih (c := (c.ask now place request).1) h
      refine ⟨call :: calls, ?_, List.forall_mem_cons.mpr ⟨hSteady, hSteady'⟩⟩
      simp only [askAll, hPolled, hRest]
      rfl

theorem beginRound_steady (h : c.faults.breakDown = false) (now : Nat) (names : List String)
    (limit : Duration) :
    ∃ round, (c.beginRound now names limit).2 = .ok round ∧ round.Steady := by
  obtain ⟨calls, hAsked, hSteady⟩ := askAll_steady h now (now + limit.toTicks) limit
    (.fetchMetadata names) (List.range c.members.size)
  refine ⟨⟨limit, now + limit.toTicks, calls⟩, ?_, hSteady⟩
  simp only [beginRound, hAsked]
  rfl

/-- The calls of a round that begins all ask the same. -/
theorem target_askAll {now deadline : Nat} {limit : Duration} {request : Request}
    {calls : List Call} {places : List Nat}
    (h : (c.askAll now deadline limit request places).2 = .ok calls) :
    calls.map Call.target = places.map (·, request) := by
  induction places generalizing c calls with
  | nil =>
      cases h
      rfl
  | cons place rest ih =>
      cases hPolled :
          (c.ask now place request).2.poll (c.ask now place request).1 now deadline limit with
      | error fault =>
          simp only [askAll, hPolled] at h
          cases h
      | ok call =>
          simp only [askAll, hPolled] at h
          cases hRest : ((c.ask now place request).1.askAll now deadline limit request rest).2 with
          | error fault =>
              rw [hRest] at h
              cases h
          | ok others =>
              rw [hRest] at h
              cases h
              have hTarget : call.target = (place, request) := Call.target_of_poll hPolled
              rw [List.map_cons, List.map_cons, hTarget, ih hRest]

section Requests

variable (c) (now deadline : Nat) (limit : Duration) (request : Request)

/-- A round asks nothing else, and if it begins, once for each of its places. -/
theorem log_askAll (places : List Nat) :
    ∃ sent, (c.askAll now deadline limit request places).1.log = sent ++ c.log ∧
      (∀ r ∈ sent, r = request) ∧
      ∀ calls, (c.askAll now deadline limit request places).2 = .ok calls →
        sent = List.replicate places.length request := by
  induction places generalizing c with
  | nil => exact ⟨[], rfl, nofun, fun _ _ => rfl⟩
  | cons place rest ih =>
      cases hPolled :
          (c.ask now place request).2.poll (c.ask now place request).1 now deadline limit with
      | error fault =>
          simp only [askAll, hPolled]
          exact ⟨[request], rfl, fun r hm => List.mem_singleton.mp hm, nofun⟩
      | ok call =>
          obtain ⟨sent, hLog, hSent, hCalls⟩ := ih (c.ask now place request).1
          simp only [askAll, hPolled]
          refine ⟨sent ++ [request], ?_, fun r hm => ?_, fun calls hAsked => ?_⟩
          · rw [hLog, List.append_assoc]
            rfl
          · exact (List.mem_append.mp hm).elim (hSent r) List.mem_singleton.mp
          · cases hRest : ((c.ask now place request).1.askAll now deadline limit request rest).2 with
            | error fault =>
                rw [hRest] at hAsked
                cases hAsked
            | ok others =>
                rw [hCalls others hRest]
                exact List.replicate_succ'.symm

variable {c now limit} in
theorem askAll_of_beginRound {names : List String} {round : Round}
    (h : (c.beginRound now names limit).2 = .ok round) :
    (c.askAll now (now + limit.toTicks) limit (.fetchMetadata names)
      (List.range c.members.size)).2 = .ok round.calls := by
  rw [beginRound] at h
  cases hAll : (c.askAll now (now + limit.toTicks) limit (.fetchMetadata names)
      (List.range c.members.size)).2 with
  | error fault =>
      rw [hAll] at h
      cases h
  | ok calls =>
      rw [hAll] at h
      cases h
      rfl

variable {c now limit} in
theorem asks_beginRound {names : List String} {round : Round}
    (h : (c.beginRound now names limit).2 = .ok round) : round.Asks c.members.size names :=
  target_askAll (askAll_of_beginRound h)

/-- A round asks for reports only, and if it begins, every member once. -/
theorem calls_beginRound (names : List String) :
    ∃ sent, (c.beginRound now names limit).1.log = sent ++ c.log ∧
      (∀ r ∈ sent, r = .fetchMetadata names) ∧
      ∀ round, (c.beginRound now names limit).2 = .ok round →
        round.calls.map Call.place = List.range c.members.size ∧
          sent = List.replicate c.members.size (.fetchMetadata names) := by
  obtain ⟨sent, hLog, hSent, hCalls⟩ := c.log_askAll now (now + limit.toTicks) limit
    (.fetchMetadata names) (List.range c.members.size)
  refine ⟨sent, hLog, hSent, fun round hAsked => ⟨?_, ?_⟩⟩
  · have hPlaces := congrArg (List.map Prod.fst) (asks_beginRound hAsked)
    simpa [Call.target, Function.comp_def] using hPlaces
  · simpa using hCalls round.calls (askAll_of_beginRound hAsked)

end Requests

end Cluster

end NearCache
