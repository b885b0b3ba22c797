import NearCache.Proofs.Client.Ownership

/-!
The workers of a client. The running one was not told to stop, any other that has not stopped is
waited for, and once the client is closed somebody is about to stop the one that runs.
-/

namespace NearCache

namespace Phase

/-- Whether an activity is about to start a worker. -/
def starts : Phase → Bool
  | .seeding .. | .collecting .. | .starting .. => true
  | _ => false

/-- Whether an activity that sets a cache up will see if the client is closed before it is over. -/
def handsOut : Phase → Bool
  | .requesting _ errand | .awaiting _ _ _ errand | .seeding _ _ errand | .collecting _ _ errand
  | .starting _ errand => !errand.renews
  | .entering .. | .finishing .. | .handing .. => true
  | _ => false

end Phase

namespace Plan

/-- The activity waits for a worker to stop. -/
def Awaits (p : Plan) (w : WorkerId) : Prop :=
  ∃ due, .awaitWorker w due ∈ p.tail

/-- The activity will tell the running worker to stop. -/
def Stops (p : Plan) : Prop :=
  .stopWorker ∈ p.tail

def Starts (p : Plan) : Prop :=
  p.phase.starts

def HandsOut (p : Plan) : Prop :=
  p.phase.handsOut

/-- The activity will destroy the cache of a name, and tell a worker to stop after that. -/
def Clears (p : Plan) (name : String) : Prop :=
  [.destroyAll, .stopWorker].Sublist p.tail ∨ [.destroy name, .stopWorker].Sublist p.tail

@[simp]
theorem not_awaits_idle (w : WorkerId) : ¬idle.Awaits w := by
  rintro ⟨due, ⟨⟩⟩

@[simp]
theorem not_stops_idle : ¬idle.Stops := by
  rintro ⟨⟩

@[simp]
theorem not_starts_idle : ¬idle.Starts := by
  rintro ⟨⟩

@[simp]
theorem not_handsOut_idle : ¬idle.HandsOut := by
  rintro ⟨⟩

@[simp]
theorem not_clears_idle (name : String) : ¬idle.Clears name := by
  rintro (⟨⟨⟩⟩ | ⟨⟨⟩⟩)

section Clearing

variable {name : String} {phase : Phase} {tail tail' : List Chore}

theorem Clears.stops {p : Plan} (h : p.Clears name) : p.Stops := by
  rcases h with h | h <;> exact h.subset (by simp)

theorem Clears.mono (h : Clears ⟨phase, tail⟩ name) (hTail : tail.Sublist tail') :
    Clears ⟨phase, tail'⟩ name :=
  h.imp (fun h => h.trans hTail) fun h => h.trans hTail

/-- A chore that destroys no cache of the name does not matter. -/
theorem Clears.drop {chore : Chore} (h : Clears ⟨phase, chore :: tail⟩ name)
    (hAll : chore ≠ .destroyAll) (hName : chore ≠ .destroy name) : Clears ⟨phase, tail⟩ name := by
  rcases h with h | h
  · cases h with
    | cons _ h => exact .inl h
    | cons_cons => exact absurd rfl hAll
  · cases h with
    | cons _ h => exact .inr h
    | cons_cons => exact absurd rfl hName

end Clearing

end Plan

variable {b b' : Books} {p p' : Plan} {plans plans' : Nat → Plan} {i : Nat}

/-- What a turn does to the workers. -/
inductive Shift (b : Books) (p : Plan) (b' : Books) (p' : Plan) : Prop
  | same (hRunning : b'.running = b.running) (hWorker : ∀ w, b'.worker w = b.worker w)
      (hNext : b'.nextWorker = b.nextWorker) (hAwaits : ∀ w, p'.Awaits w ↔ p.Awaits w)
  | hire (hVacant : ∀ w, b.running = some w → b.worker w = none)
      (hRunning : b'.running = some b.nextWorker)
      (hWorker : ∀ w, b'.worker w = if w = b.nextWorker then some false else b.worker w)
      (hNext : b'.nextWorker = b.nextWorker + 1) (hAwaits : ∀ w, p'.Awaits w ↔ p.Awaits w)
  | dismiss (w : WorkerId) (hBefore : b.running = some w) (hRunning : b'.running = none)
      (hStanding : b.worker w ≠ none → b'.worker w = some true)
      (hWorker : ∀ other, other ≠ w ∨ b.worker w = none → b'.worker other = b.worker other)
      (hNext : b'.nextWorker = b.nextWorker)
      (hAwaits : ∀ other, p'.Awaits other ↔ other = w ∨ p.Awaits other)
  | reap (w : WorkerId) (hRunning : b'.running = b.running)
      (hWorker : ∀ other, b'.worker other = if other = w then none else b.worker other)
      (hNext : b'.nextWorker = b.nextWorker)
      (hAwaits : ∀ other, p.Awaits other ↔ other = w ∨ p'.Awaits other)

theorem Turn.shift (h : Turn b p b' p') : Shift b p b' p' := by
  cases h
  case hire id errand tail hVacant =>
    exact .hire hVacant rfl (fun _ => Function.update_apply ..) rfl fun _ => .rfl
  case stop w due tail hRunning =>
    refine .dismiss w hRunning rfl (fun hStanding => ?_) (fun other hOther => ?_) rfl
      fun other => ?_
    · obtain ⟨signalled, hSome⟩ := Option.ne_none_iff_exists'.mp hStanding
      simp [Books.dismiss, hSome]
    · simp only [Books.dismiss, Function.update_apply]
      split
      next hSame =>
        subst hSame
        rw [hOther.resolve_left fun h => h rfl]
        rfl
      · rfl
    · constructor
      · rintro ⟨due', hm⟩
        rcases List.mem_cons.mp hm with hm | hm
        · cases hm
          exact .inl rfl
        · exact .inr ⟨due', .tail _ hm⟩
      · rintro (rfl | ⟨due', hm⟩)
        · exact ⟨due, .head _⟩
        · rcases List.mem_cons.mp hm with hm | hm
          · cases hm
          · exact ⟨due', .tail _ hm⟩
  case reap w due tail =>
    refine .reap w rfl (fun _ => Function.update_apply ..) rfl fun other => ?_
    constructor
    · rintro ⟨due', hm⟩
      rcases List.mem_cons.mp hm with hm | hm
      · cases hm
        exact .inl rfl
      · exact .inr ⟨due', hm⟩
    · rintro (rfl | ⟨due', hm⟩)
      · exact ⟨due, .head _⟩
      · exact ⟨due', .tail _ hm⟩
  case retract | close | release | renewAll | destroyAll | destroyNone | takeOut | stopNone |
      renewNone | renew | conclude =>
    exact .same rfl (fun _ => rfl) rfl fun _ => by simp [Plan.Awaits]
  all_goals exact .same rfl (fun _ => rfl) rfl fun _ => .rfl

/-- The running worker has not stopped, and every other one that has not is waited for. -/
structure Staffed (b : Books) (plans : Nat → Plan) : Prop where
  running : ∀ w, b.running = some w → b.worker w = some false
  standing : ∀ w signalled, b.worker w = some signalled →
    b.running = some w ∨ ∃ i, (plans i).Awaits w
  numbered : ∀ w signalled, b.worker w = some signalled → w < b.nextWorker
  awaited : ∀ i w, (plans i).Awaits w → b.running ≠ some w ∧ w < b.nextWorker

theorem Staffed.turn (h : Staffed b plans) (hTurn : Turn b (plans i) b' (plans' i))
    (hOthers : ∀ j, j ≠ i → plans' j = plans j) : Staffed b' plans' := by
  obtain ⟨hRunning, hStanding, hNumbered, hAwaited⟩ := h
  cases hTurn.shift with
  | same => constructor <;> grind
  | hire => constructor <;> grind
  | dismiss => constructor <;> grind
  | reap => constructor <;> grind

theorem Staffed.begin (h : Staffed b plans) (operation : Operation) (hOver : plans i = .idle)
    (hBegun : plans' i = operation.plan) (hOthers : ∀ j, j ≠ i → plans' j = plans j) :
    Staffed b plans' := by
  have hAwaits : ∀ w, ¬operation.plan.Awaits w := by
    cases operation <;> simp [Operation.plan, Plan.Awaits]
  obtain ⟨hRunning, hStanding, hNumbered, hAwaited⟩ := h
  constructor <;> grind [Plan.not_awaits_idle]

/-- A worker that was told to stop is none that a start or a shutdown still finds. -/
theorem Staffed.retire (h : Staffed b plans) {w : WorkerId} (hTold : b.worker w = some true) :
    Staffed (b.retire w) plans := by
  have hWorker : ∀ other, (b.retire w).worker other = if other = w then none else b.worker other :=
    fun _ => Function.update_apply ..
  have hSame : (b.retire w).running = b.running ∧ (b.retire w).nextWorker = b.nextWorker :=
    ⟨rfl, rfl⟩
  obtain ⟨hRunning, hStanding, hNumbered, hAwaited⟩ := h
  constructor <;> grind

/-- What a turn does for a client that is closed, or about to be. -/
structure Closure (b : Books) (p : Plan) (b' : Books) (p' : Plan) : Prop where
  closed : b.closed = true → b'.closed = true
  close : b'.closed = true → b.closed = true ∨ (p'.Stops ∧ ∀ name, p'.Clears name)
  stops : p'.Stops → p.Stops ∨ b'.closed = true
  stopped : p.Stops → b'.running ≠ none → p'.Stops
  kept : b.running ≠ none → b'.running ≠ none ∨ p.Stops
  handsOut : p.HandsOut → p'.HandsOut ∨ p'.Stops ∨ b.closed = false
  started : b'.running ≠ none → b.running ≠ none ∨ p'.HandsOut ∨
    ∃ id seeds, p.phase = .starting id (.renewal seeds)
  starts : p.Starts → p'.Starts ∨ b'.running ≠ none
  clears : ∀ name, p.Clears name → b'.entry name ≠ none → p'.Clears name
  entered : b.closed = true → ∀ name, b'.entry name ≠ none → b.entry name ≠ none

section Closing

theorem Errand.handsOut_next (errand : Errand) (id : CacheId) :
    (errand.next id).handsOut = !errand.renews := by
  cases errand <;> rfl

theorem Errand.handsOut_settling (errand : Errand) (id : CacheId) (limit : Duration) :
    (errand.settling id limit).handsOut = !errand.renews := by
  rcases errand with name | _ | _ <;> rfl

theorem Turn.closed (h : Turn b p b' p') (hClosed : b.closed = true) : b'.closed = true := by
  cases h <;> first | exact hClosed | rfl

theorem Turn.closes (h : Turn b p b' p') (hClosed : b'.closed = true) :
    b.closed = true ∨ (p'.Stops ∧ ∀ name, p'.Clears name) := by
  cases h
  case close =>
    exact .inr ⟨.head _, fun _ => .inl (.cons _ (.cons_cons _ (.cons_cons _ (List.nil_sublist _))))⟩
  all_goals exact .inl hClosed

theorem Turn.stops (h : Turn b p b' p') (hStops : p'.Stops) : p.Stops ∨ b'.closed = true := by
  cases h
  case retract hClosed => exact .inr hClosed
  case close => exact .inr rfl
  all_goals exact .inl (by simp_all [Plan.Stops])

theorem Turn.stopped (h : Turn b p b' p') (hStops : p.Stops) (hRunning : b'.running ≠ none) :
    p'.Stops := by
  cases h
  case stop => exact absurd rfl hRunning
  case stopNone hNone => exact absurd hNone hRunning
  all_goals simp_all [Plan.Stops]

theorem Turn.kept_running (h : Turn b p b' p') (hRunning : b.running ≠ none) :
    b'.running ≠ none ∨ p.Stops := by
  cases h
  case stop => exact .inr (.head _)
  case hire => exact .inl (Option.some_ne_none _)
  all_goals exact .inl hRunning

theorem Turn.handsOut (h : Turn b p b' p') (hHands : p.HandsOut) :
    p'.HandsOut ∨ p'.Stops ∨ b.closed = false := by
  cases h
  case handOut hOpen => exact .inr (.inr hOpen)
  case retract hClosed => exact .inr (.inl (.head _))
  case pass | finish => exact .inl rfl
  case enter name id f tail hFace hPending =>
    have hSetup : (if f.invalidates then Phase.requesting id (.setup name)
        else .finishing name id).handsOut = true := by
      cases f.invalidates <;> rfl
    exact .inl hSetup
  case request | seed | seedNone | collect | collected => exact .inl hHands
  case requestNone id errand _ _ | awaitNone id _ _ errand _ _ | staffed id errand _ _ _ _ |
      hire id errand _ _ =>
    exact .inl ((errand.handsOut_next id).trans hHands)
  case refuse id shape due errand limit tail hKnown hRefused =>
    exact .inl ((errand.handsOut_settling id limit).trans hHands)
  case grant id shape due errand f limit tail hFace hGranted =>
    cases shape with
    | repairable => exact .inl ((errand.handsOut_settling id limit).trans hHands)
    | legacy => exact .inl ((errand.handsOut_next id).trans hHands)
  all_goals cases hHands

theorem Turn.started (h : Turn b p b' p') (hRunning : b'.running ≠ none) :
    b.running ≠ none ∨ p'.HandsOut ∨ ∃ id seeds, p.phase = .starting id (.renewal seeds) := by
  cases h
  case hire id errand tail hVacant =>
    cases errand with
    | setup name => exact .inr (.inl rfl)
    | renewal seeds => exact .inr (.inr ⟨id, seeds, rfl⟩)
  case stop => exact absurd rfl hRunning
  all_goals exact .inl hRunning

theorem Turn.starts (h : Turn b p b' p') (hStarts : p.Starts) : p'.Starts ∨ b'.running ≠ none := by
  cases h
  case hire => exact .inr (Option.some_ne_none _)
  case staffed hRunning hAlive => exact .inr (by simp [hRunning])
  case seed | seedNone | collect | collected => exact .inl rfl
  all_goals cases hStarts

theorem Turn.clears (h : Turn b p b' p') {name : String} (hClears : p.Clears name)
    (hEntry : b'.entry name ≠ none) : p'.Clears name := by
  cases h
  case destroyAll names tail hNames =>
    obtain ⟨id, hId⟩ := Option.ne_none_iff_exists'.mp hEntry
    have hStops : .stopWorker ∈ tail := by simpa [Plan.Stops] using hClears.stops
    have hDestroys : .destroy name ∈ names.map Chore.destroy :=
      List.mem_map_of_mem (hNames name id hId)
    exact .inr ((List.singleton_sublist.mpr hDestroys).append (List.singleton_sublist.mpr hStops))
  case destroyNone other tail hNone =>
    exact hClears.drop (by rintro ⟨⟩) (by rintro ⟨⟩; exact hEntry hNone)
  case takeOut other id tail hOther =>
    exact hClears.drop (by rintro ⟨⟩) (by rintro ⟨⟩; simp [Books.takeOut] at hEntry)
  case stop =>
    exact (hClears.drop (by rintro ⟨⟩) (by rintro ⟨⟩)).mono (List.sublist_cons_self _ _)
  case stopNone | reap | renewNone | renew | conclude =>
    exact hClears.drop (by rintro ⟨⟩) (by rintro ⟨⟩)
  case retract => exact hClears.mono (List.sublist_append_right [_, _, _] _)
  case close => exact hClears.mono (List.sublist_append_right [_, _, _, _] _)
  case release => exact hClears.mono (List.sublist_cons_self _ _)
  case renewAll =>
    exact hClears.mono ((List.sublist_cons_self _ _).trans (List.sublist_append_right _ _))
  all_goals exact hClears

/-- No cache comes into the directory of a client that is closed. -/
theorem Turn.entered (h : Turn b p b' p') (hClosed : b.closed = true) {name : String}
    (hEntry : b'.entry name ≠ none) : b.entry name ≠ none := by
  cases h
  case create hOpen hNone => cases hOpen.symm.trans hClosed
  case takeOut other id tail hOther =>
    simp only [Books.takeOut, Function.update_apply] at hEntry
    split at hEntry
    · exact absurd rfl hEntry
    · exact hEntry
  all_goals exact hEntry

end Closing

theorem Turn.closure (h : Turn b p b' p') : Closure b p b' p' where
  closed := h.closed
  close := h.closes
  stops := h.stops
  stopped := h.stopped
  kept := h.kept_running
  handsOut := h.handsOut
  started := h.started
  starts := h.starts
  clears _ := h.clears
  entered hClosed _ := h.entered hClosed

/-- Once the client is closed, every cache in the directory is about to be destroyed and a worker
that runs is about to be stopped. -/
structure Winding (b : Books) (plans : Nat → Plan) : Prop where
  stops : ∀ i, (plans i).Stops → b.closed = true
  clears : b.closed = true → ∀ name, b.entry name ≠ none → ∃ i, (plans i).Clears name
  halts : b.closed = true → b.running ≠ none → ∃ i, (plans i).Stops ∨ (plans i).HandsOut

theorem Winding.halts_of_turn (h : Winding b plans) (hUndisturbed : Undisturbed b plans)
    (hTurn : Turn b (plans i) b' (plans' i)) (hOthers : ∀ j, j ≠ i → plans' j = plans j)
    (hClosed : b.closed = true) (hRunning : b'.running ≠ none) :
    ∃ j, (plans' j).Stops ∨ (plans' j).HandsOut := by
  have hStopped (j : Nat) (hStops : (plans j).Stops) : (plans' j).Stops :=
    kept_of_others (P := Plan.Stops) hOthers (fun hSelf => hTurn.stopped hSelf hRunning) hStops
  rcases hTurn.started hRunning with hRan | hHands | ⟨id, seeds, hStarting⟩
  · obtain ⟨j, hStops | hHands⟩ := h.halts hClosed hRan
    · exact ⟨j, .inl (hStopped j hStops)⟩
    · refine ⟨j, kept_of_others (P := fun p => p.Stops ∨ p.HandsOut) hOthers ?_ (.inr hHands)⟩
      rintro (hStops | hHands)
      · exact .inl (hTurn.stopped hStops hRunning)
      · rcases hTurn.handsOut hHands with hHands' | hStops | hOpen
        · exact .inr hHands'
        · exact .inl hStops
        · cases hOpen.symm.trans hClosed
  · exact ⟨i, .inr hHands⟩
  -- A renewal starts a worker only until the directory is cleared, and whoever clears it stops it.
  · obtain ⟨other, name, hEntry⟩ := hUndisturbed.staffed hClosed i id seeds hStarting
    obtain ⟨j, hClears⟩ := h.clears hClosed name (by simp [hEntry])
    exact ⟨j, .inl (hStopped j hClears.stops)⟩

theorem Winding.turn (h : Winding b plans) (hUndisturbed : Undisturbed b plans)
    (hTurn : Turn b (plans i) b' (plans' i)) (hOthers : ∀ j, j ≠ i → plans' j = plans j) :
    Winding b' plans' := by
  refine ⟨fun j hj => ?_, fun hClosed name hEntry => ?_, fun hClosed hRunning => ?_⟩
  · by_cases hSame : j = i
    · subst hSame
      exact (hTurn.stops hj).elim (fun hBefore => hTurn.closed (h.stops j hBefore)) id
    · exact hTurn.closed (h.stops j (hOthers j hSame ▸ hj))
  · rcases hTurn.closes hClosed with hBefore | ⟨-, hClears⟩
    · obtain ⟨j, hj⟩ := h.clears hBefore name (hTurn.entered hBefore hEntry)
      have hKept : (plans i).Clears name → (plans' i).Clears name :=
        fun hSelf => hTurn.clears hSelf hEntry
      exact ⟨j, kept_of_others (P := fun p => p.Clears name) hOthers hKept hj⟩
    · exact ⟨i, hClears name⟩
  · rcases hTurn.closes hClosed with hBefore | ⟨hStops, -⟩
    · exact h.halts_of_turn hUndisturbed hTurn hOthers hBefore hRunning
    · exact ⟨i, .inl hStops⟩

theorem Winding.begin (h : Winding b plans) (operation : Operation) (hOver : plans i = .idle)
    (hBegun : plans' i = operation.plan) (hOthers : ∀ j, j ≠ i → plans' j = plans j) :
    Winding b plans' := by
  have hNew : ¬operation.plan.Stops := by cases operation <;> simp [Operation.plan, Plan.Stops]
  obtain ⟨hStops, hClears, hHalts⟩ := h
  constructor <;> grind [Plan.not_stops_idle, Plan.not_handsOut_idle, Plan.not_clears_idle]

end NearCache
