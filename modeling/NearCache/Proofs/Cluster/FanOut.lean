import Mathlib.Data.List.Basic
import NearCache.Proofs.Cluster.Round

/-!
What a round brings in. Each member decides by itself which reply it gets and when, so a round that is
polled at least whenever a reply is due ends with the reports of the members that answer in time.
-/

namespace NearCache

namespace Member

/-- Milliseconds from a request until the member answers. -/
def pause (m : Member) : Nat :=
  boundedPause (m.delay.getD 0)

/-- The report that the member adds to a round under a limit. A member that fails, confuses its answers
or answers later than that adds none. -/
def contribution? (limit : Duration) (m : Member) : Option MemberReport :=
  if m.failing ∨ m.confused ∨ limit.toTicks < m.pause then none else some m.report

/-- Milliseconds from a request under a limit until the member is done with. -/
def settles (limit : Duration) (m : Member) : Nat :=
  min m.pause limit.toTicks

end Member

/-- The reply to a request under a limit that the member of a place gets in the end. -/
def Cluster.reply (c : Cluster) (limit : Duration) (names : List String) (place : Nat) :
    Except Error MemberReport :=
  let m := c.memberAt place
  if m.pause ≤ limit.toTicks then
    Call.reportOf (.fetchMetadata names) (c.answerAt place m.failing (.fetchMetadata names)).2
  else .error (.cluster (.timeout m.address limit))

/-- The call is one of a round that began at an instant, and has the reply that its member gets in the
end, or none so far. -/
structure Call.OnCourse (c : Cluster) (start : Nat) (limit : Duration) (names : List String)
    (call : Call) : Prop where
  asked : { call with reply := none } = (c.ask start call.place (.fetchMetadata names)).2
  reply : call.reply = none ∨ call.reply = some (c.reply limit names call.place)

section Course

variable {c c' : Cluster} {start now : Nat} {limit : Duration} {names : List String} {call : Call}

namespace Cluster

/-- A member answers a request for its report by itself. -/
theorem answerAt_of_members (h : c'.members = c.members) (place : Nat) (refused : Bool) :
    (c'.answerAt place refused (.fetchMetadata names)).2 =
      (c.answerAt place refused (.fetchMetadata names)).2 := by
  have hMember : c'.memberAt place = c.memberAt place := by simp only [memberAt, h]
  simp only [answerAt, hMember]
  cases refused with
  | true => rfl
  | false => cases hConfused : (c.memberAt place).confused <;> simp

theorem ask_of_members (h : c'.members = c.members) (hFaults : c'.faults = c.faults)
    (place : Nat) (request : Request) : (c'.ask now place request).2 = (c.ask now place request).2 := by
  simp only [ask, memberAt, h, hFaults]

/-- The members stand in the order of their places. -/
theorem map_memberAt (c : Cluster) : (List.range c.members.size).map c.memberAt = c.members.toList := by
  apply List.ext_getElem (by simp)
  intro i hLeft hRight
  have hPlace : i < c.members.size := by simpa using hRight
  simp [memberAt, hPlace]

/-- The reply has a report if and only if the member contributes one. -/
theorem toOption_reply (c : Cluster) (limit : Duration) (names : List String) (place : Nat) :
    (c.reply limit names place).toOption = (c.memberAt place).contribution? limit := by
  simp only [reply, answerAt, Member.contribution?]
  by_cases hLate : (c.memberAt place).pause ≤ limit.toTicks
  · rw [if_pos hLate]
    cases hFails : (c.memberAt place).failing with
    | true => simp [Call.reportOf, Except.toOption]
    | false =>
        cases hConfused : (c.memberAt place).confused with
        | true => simp [Call.reportOf, Except.toOption]
        | false => simp [hLate, Call.reportOf, Except.toOption]
  · rw [if_neg hLate, if_pos (Or.inr (Or.inr (Nat.lt_of_not_le hLate)))]
    rfl

end Cluster

namespace Call.OnCourse

theorem address (h : call.OnCourse c start limit names) :
    call.address = (c.memberAt call.place).address :=
  congrArg Call.address h.asked

theorem request (h : call.OnCourse c start limit names) : call.request = .fetchMetadata names :=
  congrArg Call.request h.asked

theorem due (h : call.OnCourse c start limit names) :
    call.due = start + (c.memberAt call.place).pause :=
  congrArg Call.due h.asked

theorem refused (h : call.OnCourse c start limit names) :
    call.refused = (c.memberAt call.place).failing :=
  congrArg Call.refused h.asked

theorem breaksDown (h : call.OnCourse c start limit names) : call.breaksDown = c.faults.breakDown :=
  congrArg Call.breaksDown h.asked

/-- The member alone decides when the call gets its reply. -/
theorem of_wakes (h : call.OnCourse c start limit names) {due : Nat}
    (hWakes : call.wakes (start + limit.toTicks) = some due) :
    due = start + (c.memberAt call.place).settles limit := by
  unfold wakes at hWakes
  split at hWakes
  · cases hWakes
  · rw [h.due, Nat.add_min_add_left] at hWakes
    exact (Option.some.inj hWakes).symm

theorem of_done (h : call.OnCourse c start limit names) (hDone : call.isDone) :
    call.reply = some (c.reply limit names call.place) := by
  obtain hNone | hSome := h.reply
  · simp [isDone, hNone] at hDone
  · exact hSome

/-- A call that is polled no later than its reply is due stays on course, and has its reply if it is
polled just then. -/
theorem poll (h : call.OnCourse c start limit names) (hSteady : c.faults.breakDown = false)
    (hMembers : c'.members = c.members)
    (hInTime : ∀ due, call.wakes (start + limit.toTicks) = some due → now ≤ due) :
    ∃ call', call.poll c' now (start + limit.toTicks) limit = .ok call' ∧
      call'.OnCourse c start limit names ∧
        ∀ due, call'.wakes (start + limit.toTicks) = some due → now < due := by
  unfold Call.poll
  cases hDone : call.isDone with
  | true =>
      refine ⟨call, rfl, h, fun due hWakes => ?_⟩
      simp [wakes, hDone] at hWakes
  | false =>
      have hNow := hInTime (min call.due (start + limit.toTicks)) (by simp [wakes, hDone])
      have hDue := h.due
      have hStands : ¬call.breaksDown = true := by simp [h.breaksDown, hSteady]
      rw [if_neg (by simp), if_neg hStands]
      by_cases hCame : call.due ≤ now
      · rw [if_pos hCame]
        have hEarly : (c.memberAt call.place).pause ≤ limit.toTicks := by omega
        refine ⟨_, rfl, ⟨h.asked, Or.inr ?_⟩, nofun⟩
        simp only [Cluster.reply, if_pos hEarly]
        rw [h.refused, h.request, Cluster.answerAt_of_members hMembers]
      · rw [if_neg hCame]
        by_cases hOver : start + limit.toTicks ≤ now
        · rw [if_pos hOver]
          have hLate : ¬(c.memberAt call.place).pause ≤ limit.toTicks := by omega
          refine ⟨_, rfl, ⟨h.asked, Or.inr ?_⟩, nofun⟩
          simp only [Cluster.reply, if_neg hLate, h.address]
        · rw [if_neg hOver]
          refine ⟨call, rfl, h, fun due hWakes => ?_⟩
          simp [wakes, hDone] at hWakes
          omega

end Call.OnCourse

namespace Round

variable {r : Round}

/-- The round began at an instant, and each of its calls is on course. -/
structure OnCourse (c : Cluster) (start : Nat) (limit : Duration) (names : List String) (r : Round) :
    Prop where
  bounded : r.limit = limit
  deadline : r.deadline = start + limit.toTicks
  asks : r.Asks c.members.size names
  calls : ∀ call ∈ r.calls, call.OnCourse c start limit names

theorem wakes_eq_none_iff : r.wakes = none ↔ r.isDone := by
  simp [wakes, isDone, Call.wakes]

theorem exists_wakes_le {call : Call} (hm : call ∈ r.calls) {due : Nat}
    (h : call.wakes r.deadline = some due) : ∃ next, r.wakes = some next ∧ next ≤ due := by
  have hDue : due ∈ r.calls.filterMap (Call.wakes r.deadline) := List.mem_filterMap.mpr ⟨call, hm, h⟩
  cases hNext : r.wakes with
  | none => simp [List.min?_eq_none_iff.mp hNext] at hDue
  | some next => exact ⟨next, rfl, (List.min?_eq_some_iff.mp hNext).2 due hDue⟩

theorem mem_of_wakes {due : Nat} (h : r.wakes = some due) :
    ∃ call ∈ r.calls, call.wakes r.deadline = some due :=
  List.mem_filterMap.mp (List.min?_eq_some_iff.mp h).1

/-- A round that is polled no later than its next reply is due stays on course, and takes the reply if
it is polled just then. -/
theorem OnCourse.poll (h : r.OnCourse c start limit names) (hSteady : c.faults.breakDown = false)
    (hMembers : c'.members = c.members) (hInTime : ∀ due, r.wakes = some due → now ≤ due) :
    ∃ r', r.poll c' now = .ok r' ∧ r'.OnCourse c start limit names ∧
      ∀ due, r'.wakes = some due → now < due := by
  have hCalls : ∀ call ∈ r.calls, ∃ call', call.poll c' now r.deadline r.limit = .ok call' ∧
      call'.OnCourse c start limit names ∧
        ∀ due, call'.wakes r.deadline = some due → now < due := by
    intro call hm
    rw [h.deadline, h.bounded]
    refine (h.calls call hm).poll hSteady hMembers fun due hWakes => ?_
    rw [← h.deadline] at hWakes
    obtain ⟨next, hNext, hLess⟩ := exists_wakes_le hm hWakes
    exact Nat.le_trans (hInTime next hNext) hLess
  obtain ⟨calls', hAll, hEach⟩ := exists_mapM_ok hCalls
  have hPolled : r.poll c' now = .ok { r with calls := calls' } := by
    rw [Round.poll, hAll]
    rfl
  refine ⟨_, hPolled, ⟨h.bounded, h.deadline, h.asks.poll hPolled, fun call hm => (hEach call hm).1⟩, ?_⟩
  intro due hWakes
  obtain ⟨call, hm, hDue⟩ := mem_of_wakes hWakes
  exact (hEach call hm).2 due hDue

/-- The calls of a round on course are for the members, one each and in their order. -/
theorem OnCourse.members (h : r.OnCourse c start limit names) :
    r.calls.map (fun call => c.memberAt call.place) = c.members.toList := by
  have hPlaces := congrArg (List.map fun target => c.memberAt target.1) h.asks
  simp only [List.map_map] at hPlaces
  exact hPlaces.trans c.map_memberAt

theorem OnCourse.of_wakes (h : r.OnCourse c start limit names) {due : Nat}
    (hWakes : r.wakes = some due) : ∃ m ∈ c.members.toList, due = start + m.settles limit := by
  obtain ⟨call, hm, hDue⟩ := mem_of_wakes hWakes
  rw [h.deadline] at hDue
  refine ⟨c.memberAt call.place, ?_, (h.calls call hm).of_wakes hDue⟩
  rw [← h.members]
  exact List.mem_map.mpr ⟨call, hm, rfl⟩

/-- Every member is asked once, for its report on the names. -/
theorem OnCourse.requests (h : r.OnCourse c start limit names) :
    r.calls.map (fun call => (call.address, call.request)) =
      c.members.toList.map (fun m => (m.address, .fetchMetadata names)) := by
  rw [← h.members, List.map_map]
  apply List.map_congr_left
  intro call hm
  rw [(h.calls call hm).address, (h.calls call hm).request]
  rfl

/-- A round on course that is over has the reports of the members that contribute, in their order. -/
theorem OnCourse.reports (h : r.OnCourse c start limit names) (hDone : r.isDone) :
    r.reports = c.members.toList.filterMap (Member.contribution? limit) := by
  rw [← h.members, List.filterMap_map, Round.reports]
  apply List.filterMap_congr
  intro call hm
  rw [Function.comp_apply, ← c.toOption_reply limit names]
  rw [(h.calls call hm).of_done (List.all_eq_true.mp hDone call hm)]
  cases c.reply limit names call.place <;> rfl

theorem OnCourse.failures (h : r.OnCourse c start limit names) (hDone : r.isDone) :
    r.failures = c.members.toList.countP fun m => (m.contribution? limit).isNone := by
  rw [← h.members, List.countP_map, Round.failures]
  apply List.countP_congr
  intro call hm
  rw [Function.comp_apply, ← c.toOption_reply limit names]
  rw [(h.calls call hm).of_done (List.all_eq_true.mp hDone call hm)]
  cases c.reply limit names call.place <;> simp [Except.toOption]

end Round

namespace Cluster

theorem askAll_onCourse (hSteady : c.faults.breakDown = false) (hMembers : c'.members = c.members)
    (hFaults : c'.faults = c.faults) (now : Nat) (limit : Duration) (names : List String)
    (places : List Nat) :
    ∃ calls, (c'.askAll now (now + limit.toTicks) limit (.fetchMetadata names) places).2 = .ok calls ∧
      ∀ call ∈ calls, call.OnCourse c now limit names ∧
        ∀ due, call.wakes (now + limit.toTicks) = some due → now < due := by
  induction places generalizing c' with
  | nil => exact ⟨[], rfl, by simp⟩
  | cons place rest ih =>
      have hAsked : (c'.ask now place (.fetchMetadata names)).2.OnCourse c now limit names :=
        ⟨ask_of_members hMembers hFaults place _, Or.inl rfl⟩
      have hSoon : ∀ due, (c'.ask now place (.fetchMetadata names)).2.wakes (now + limit.toTicks) =
          some due → now ≤ due := by
        intro due hWakes
        have hDue := hAsked.of_wakes hWakes
        omega
      have hAsks : (c'.ask now place (.fetchMetadata names)).1.members = c.members := hMembers
      obtain ⟨call, hPolled, hCall⟩ := hAsked.poll hSteady hAsks hSoon
      obtain ⟨calls, hRest, hCalls⟩ := ih hAsks hFaults
      refine ⟨call :: calls, ?_, List.forall_mem_cons.mpr ⟨hCall, hCalls⟩⟩
      simp only [askAll]
      rw [hPolled]
      simp only [hRest]
      rfl

/-- A round begins on course. -/
theorem beginRound_onCourse (hSteady : c.faults.breakDown = false) (hMembers : c'.members = c.members)
    (hFaults : c'.faults = c.faults) (now : Nat) (names : List String) (limit : Duration) :
    ∃ r, (c'.beginRound now names limit).2 = .ok r ∧ r.OnCourse c now limit names ∧
      ∀ due, r.wakes = some due → now < due := by
  obtain ⟨calls, hAsked, hCalls⟩ :=
    askAll_onCourse hSteady hMembers hFaults now limit names (List.range c'.members.size)
  have hBegun : (c'.beginRound now names limit).2 = .ok ⟨limit, now + limit.toTicks, calls⟩ := by
    simp only [beginRound, hAsked]
    rfl
  have hAsks := asks_beginRound hBegun
  rw [hMembers] at hAsks
  refine ⟨_, hBegun, ⟨rfl, rfl, hAsks, fun call hm => (hCalls call hm).1⟩, ?_⟩
  intro due hWakes
  obtain ⟨call, hm, hDue⟩ := Round.mem_of_wakes hWakes
  exact (hCalls call hm).2 due hDue

/-- The number of members that are still to get a reply to what they were asked at an instant. -/
def pending (c : Cluster) (start : Nat) (limit : Duration) (now : Nat) : Nat :=
  c.members.toList.countP fun m => now < start + m.settles limit

theorem pending_le (c : Cluster) (start : Nat) (limit : Duration) (now : Nat) :
    c.pending start limit now ≤ c.members.size :=
  List.countP_le_length

/-- Whenever a reply is due, fewer are still to come. -/
theorem pending_lt {r : Round} (h : r.OnCourse c start limit names) {due : Nat}
    (hWakes : r.wakes = some due) (hLater : now < due) :
    c.pending start limit due < c.pending start limit now := by
  obtain ⟨m, hm, rfl⟩ := h.of_wakes hWakes
  have hFewer (ms : List Member) :
      ms.countP (fun m' => start + m.settles limit < start + m'.settles limit) ≤
        ms.countP fun m' => now < start + m'.settles limit := by
    apply List.countP_mono_left
    intro m' _ hStill
    rw [decide_eq_true_eq] at hStill ⊢
    omega
  obtain ⟨before, after, hSplit⟩ := List.append_of_mem hm
  have hBefore := hFewer before
  have hAfter := hFewer after
  rw [pending, pending, hSplit, List.countP_append, List.countP_append,
    List.countP_cons_of_neg (by simp), List.countP_cons_of_pos (by simpa using hLater)]
  omega

end Cluster

end Course

end NearCache
