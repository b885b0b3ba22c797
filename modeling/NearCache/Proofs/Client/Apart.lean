import NearCache.Proofs.Client.Runs

/-!
Callers that renew listeners only while nothing else goes on. Where one activity renews and the others
have nothing to do, every cache that it renews is in the directory and set up, so such renewals are
apart cache by cache as well.
-/

namespace NearCache

variable {b b' : Books} {p p' : Plan} {plans plans' : Nat → Plan} {i : Nat}

/-- While an activity renews listeners the others have nothing to do, and it renews those of caches in
the directory only. -/
structure Alone (b : Books) (plans : Nat → Plan) : Prop where
  apart : ∀ i j, (plans i).Renews → j ≠ i → plans j = .idle
  listed : ∀ i id, (plans i).role = some (.renewal, id) ∨ (plans i).Intends id → b.Lists id
  peopled : ∀ i, (plans i).Renews → (plans i).phase = .renewing ∨ ∃ id, b.Lists id

/-- A cache in the directory that nobody opens and nobody sets up is set up. -/
theorem Owned.finished (h : Owned b plans) {id : CacheId} (hListed : b.Lists id)
    (hEnters : ∀ j, (plans j).enters ≠ some id) (hSetup : ∀ j, (plans j).role ≠ some (.setup, id)) :
    b.stage id = some .finished := by
  obtain ⟨setup, hStage⟩ := Option.ne_none_iff_exists'.mp (h.known id hListed)
  cases setup with
  | finished => exact hStage
  | pending =>
      obtain ⟨j, hj⟩ := h.pending id hStage hListed
      exact absurd hj (hEnters j)
  | running =>
      obtain ⟨j, hj⟩ := h.running id hStage
      exact absurd hj (hSetup j)

theorem Phase.enters_of_role {phase : Phase} {r : Role × CacheId} (h : phase.role = some r) :
    phase.enters = none := by
  cases phase <;> first | rfl | cases h

theorem Alone.undisturbed (h : Alone b plans) (hOwned : Owned b plans) : Undisturbed b plans where
  listed i id hRole := h.listed i id (.inl hRole)
  finished i id hRole := by
    have hIdle : ∀ j, j ≠ i → plans j = .idle := fun j => h.apart i j (Plan.renews_of_role hRole)
    refine hOwned.finished (h.listed i id (.inl hRole)) (fun j hj => ?_) fun j hj => ?_
    · by_cases hSame : j = i
      · subst hSame
        cases (Phase.enters_of_role hRole).symm.trans hj
      · rw [hIdle j hSame] at hj
        cases hj
    · by_cases hSame : j = i
      · subst hSame
        cases hRole.symm.trans hj
      · rw [hIdle j hSame] at hj
        cases hj
  once i j id hRole hRole' := by
    by_contra hOther
    rw [h.apart i j (Plan.renews_of_role hRole) (Ne.symm hOther)] at hRole'
    cases hRole'
  staffed _ i id seeds hStarting := by
    refine (h.peopled i (.inl (by rw [hStarting]; rfl))).resolve_left ?_
    rw [hStarting]
    rintro ⟨⟩

section Turns

theorem Turn.ne_idle (h : Turn b p b' p') : p ≠ .idle := by
  cases h <;> rintro ⟨⟩

/-- An activity that only renews listeners leaves the directory alone. -/
theorem Turn.entry_of_plain (h : Turn b p b' p') (hPlain : p.Plain) : b'.entry = b.entry := by
  obtain ⟨hPhase, hTail⟩ := hPlain
  cases h
  case create => rcases hPhase with h | h <;> cases h
  case takeOut => cases hTail _ (.head _)
  all_goals rfl

theorem Turn.free_of_renewing (h : Turn b p b' p') (hPhase : p.phase = .renewing) :
    p'.phase = .free := by
  cases h <;> cases hPhase
  rfl

theorem Turn.renewal (hFiled : Filed b) (h : Turn b p b' p') {id : CacheId}
    (hRole : p'.role = some (.renewal, id)) : p.role = some (.renewal, id) ∨ p.Intends id := by
  cases h.passage hFiled with
  | same _ _ _ hSame =>
      rcases hSame with hSame | ⟨hNone, -⟩
      · exact .inl (hSame.symm.trans hRole)
      · cases hNone.symm.trans hRole
  | create _ _ _ hNone => cases hNone.2.symm.trans hRole
  | enter _ _ _ _ _ hSetup => cases hSetup.2.symm.trans hRole
  | finish _ _ _ _ _ hNone => cases hNone.2.symm.trans hRole
  | takeOut _ _ _ _ _ hSealing => cases hSealing.2.symm.trans hRole
  | sealed _ _ _ _ _ _ hTeardown => cases hTeardown.2.symm.trans hRole
  | renew other _ hRenewal _ hIntends =>
      cases hRenewal.2.symm.trans hRole
      exact .inr hIntends

end Turns

section Preservation

/-- Whoever renews listeners is the one whose turn it is. -/
theorem Alone.mine (h : Alone b plans) (hTurn : Turn b (plans i) b' (plans' i))
    (hOthers : ∀ j, j ≠ i → plans' j = plans j) {j : Nat} (hRenews : (plans' j).Renews) :
    j = i ∧ (plans i).Renews := by
  by_cases hSame : j = i
  · subst hSame
    exact ⟨rfl, hTurn.renews hRenews⟩
  · rw [hOthers j hSame] at hRenews
    exact absurd (h.apart j i hRenews (Ne.symm hSame)) hTurn.ne_idle

theorem Alone.turn (h : Alone b plans) (hFiled : Filed b)
    (hPlain : (plans i).Renews → (plans i).Plain) (hTurn : Turn b (plans i) b' (plans' i))
    (hOthers : ∀ j, j ≠ i → plans' j = plans j) : Alone b' plans' := by
  have hListed : ∀ j id, (plans' j).role = some (.renewal, id) ∨ (plans' j).Intends id →
      b'.Lists id := by
    intro j id hAbout
    have hRenews : (plans' j).Renews := hAbout.elim Plan.renews_of_role fun h => .inr ⟨id, h⟩
    obtain ⟨rfl, hBefore⟩ := h.mine hTurn hOthers hRenews
    have hKept : b.Lists id := by
      rcases hAbout with hRole | hIntends
      · exact h.listed j id (hTurn.renewal hFiled hRole)
      · exact (hTurn.intends hIntends).elim (fun h' => h.listed j id (.inr h')) And.right
    rwa [Books.Lists, hTurn.entry_of_plain (hPlain hBefore)]
  refine ⟨fun j k hRenews hOther => ?_, hListed, fun j hRenews => ?_⟩
  · obtain ⟨rfl, hBefore⟩ := h.mine hTurn hOthers hRenews
    rw [hOthers k hOther]
    exact h.apart j k hBefore hOther
  · obtain ⟨rfl, hBefore⟩ := h.mine hTurn hOthers hRenews
    have hEntry := hTurn.entry_of_plain (hPlain hBefore)
    rcases hRenews with hPhase | ⟨id, hIntends⟩
    · have hPast : (plans j).phase ≠ .renewing := by
        intro hRenewing
        rw [hTurn.free_of_renewing hRenewing] at hPhase
        cases hPhase
      obtain ⟨id, hId⟩ := (h.peopled j hBefore).resolve_left hPast
      exact .inr ⟨id, by rwa [Books.Lists, hEntry]⟩
    · exact .inr ⟨id, hListed j id (.inr hIntends)⟩

/-- An operation begins when nobody renews listeners, and a renewal when nobody does anything. -/
theorem alone_begin (operation : Operation) (hBegun : plans' i = operation.plan)
    (hOthers : ∀ j, j ≠ i → plans' j = plans j) (hNobody : ∀ j, ¬(plans j).Renews)
    (hQuiet : operation = .resubscribeAll → ∀ j, plans j = .idle) : Alone b plans' := by
  have hMine : ∀ j, (plans' j).Renews → j = i ∧ operation = .resubscribeAll := by
    intro j hRenews
    by_cases hSame : j = i
    · subst hSame
      rw [hBegun] at hRenews
      exact ⟨rfl, operation.eq_resubscribeAll_of_renews hRenews⟩
    · rw [hOthers j hSame] at hRenews
      exact absurd hRenews (hNobody j)
  refine ⟨fun j k hRenews hOther => ?_, fun j id hAbout => ?_, fun j hRenews => ?_⟩
  · obtain ⟨rfl, hOperation⟩ := hMine j hRenews
    rw [hOthers k hOther]
    exact hQuiet hOperation k
  · have hRenews : (plans' j).Renews := hAbout.elim Plan.renews_of_role fun h => .inr ⟨id, h⟩
    obtain ⟨rfl, rfl⟩ := hMine j hRenews
    rw [hBegun] at hAbout
    rcases hAbout with hRole | hIntends
    · cases hRole
    · cases hIntends
  · obtain ⟨rfl, rfl⟩ := hMine j hRenews
    rw [hBegun]
    exact .inl rfl

end Preservation

section Callers

variable {t : Traffic} {id : CacheId}

theorem Chore.listener?_action (chore : Chore) : chore.action.listener? = none := by
  cases chore <;> rfl

/-- What a caller that only renews listeners renews at present is what its plan has in hand. -/
theorem Plan.Plain.role_of_listener (hPlain : p.Plain)
    (hListener : p.actions.findSome? Action.listener? = some id) :
    p.role = some (.renewal, id) := by
  obtain ⟨phase, tail⟩ := p
  have hTail : (tail.map Chore.action).findSome? Action.listener? = none := by
    simp [Chore.listener?_action]
  rw [Plan.actions, List.findSome?_append, hTail, Option.or_none] at hListener
  cases phase
  case requesting errand | awaiting errand =>
    cases errand with
    | setup name => rcases hPlain.1 with h | h <;> cases h
    | renewal seeds =>
        cases hListener
        rfl
  case detaching sequel | removing sequel =>
    cases sequel with
    | release => rcases hPlain.1 with h | h <;> cases h
    | renewal seeds =>
        cases hListener
        rfl
  case seeding errand | collecting errand | starting errand =>
    cases errand with
    | setup name => rcases hPlain.1 with h | h <;> cases h
    | renewal seeds => cases hListener
  case free | renewing => cases hListener
  all_goals rcases hPlain.1 with h | h <;> cases h

theorem Plan.Plain.starting_of_head (hPlain : p.Plain)
    (hHead : p.actions.head?.any Action.startsWorker) :
    ∃ id seeds, p.phase = .starting id (.renewal seeds) := by
  obtain ⟨phase, tail⟩ := p
  cases phase
  case starting id errand =>
    cases errand with
    | setup name => rcases hPlain.1 with h | h <;> cases h
    | renewal seeds => exact ⟨id, seeds, rfl⟩
  case free =>
    cases tail with
    | nil => cases hHead
    | cons chore tail => cases chore <;> cases hHead
  all_goals cases hHead

theorem Planned.role_of_renewing {closed : Bool} {callers : List Caller} {caller : Caller}
    (h : Planned closed callers plans) (hCaller : callers[i]? = some caller)
    (hRenewing : caller.renewing? = some id) : (plans i).role = some (.renewal, id) := by
  unfold Caller.renewing? at hRenewing
  split at hRenewing
  next hOperation =>
    rw [h.todo i caller hCaller] at hRenewing
    exact (h.plain i caller hCaller hOperation).role_of_listener hRenewing
  · cases hRenewing

/-- Callers whose plans leave each other undisturbed renew listeners apart. -/
theorem Planned.renewsApart (h : Planned t.client.closed t.callers plans)
    (hUndisturbed : Undisturbed t.client.books plans) : t.RenewsApart := by
  have hRole : ∀ id ∈ t.renewing, ∃ i, (plans i).role = some (.renewal, id) := by
    intro id hm
    obtain ⟨caller, hm, hRenewing⟩ := List.mem_filterMap.mp hm
    obtain ⟨i, hCaller⟩ := List.mem_iff_getElem?.mp hm
    exact ⟨i, h.role_of_renewing hCaller hRenewing⟩
  constructor
  · intro id hm
    obtain ⟨i, hi⟩ := hRole id hm
    exact Client.mem_registered.mpr (hUndisturbed.listed i id hi)
  · intro id hm
    obtain ⟨i, hi⟩ := hRole id hm
    have hFinished := hUndisturbed.finished i id hi
    rwa [Books.stage, Client.books, Option.map_map] at hFinished
  · refine List.pairwise_filterMap.mpr (List.pairwise_iff_getElem.mpr ?_)
    rintro i j hi hj hLess id hRenewing other hRenewing' rfl
    have hi' := h.role_of_renewing (List.getElem?_eq_getElem hi) hRenewing
    have hj' := h.role_of_renewing (List.getElem?_eq_getElem hj) hRenewing'
    exact Nat.ne_of_lt hLess (hUndisturbed.once i j id hi' hj')
  · rintro hClosed ⟨caller, hm, hOperation, hHead⟩ hEmpty
    obtain ⟨i, hCaller⟩ := List.mem_iff_getElem?.mp hm
    rw [h.todo i caller hCaller] at hHead
    obtain ⟨id, seeds, hStarting⟩ := (h.plain i caller hCaller hOperation).starting_of_head hHead
    obtain ⟨other, hListed⟩ := hUndisturbed.staffed hClosed i id seeds hStarting
    exact List.ne_nil_of_mem (Client.mem_registered.mpr hListed) hEmpty

end Callers

section Runs

theorem Alone.perform {t : Traffic} {call : Traffic.Call} (h : Alone t.client.books plans)
    (hPlanned : Planned t.client.closed t.callers plans) (hFiled : Filed t.client.books)
    (hAlone : Traffic.RenewsAlone (t, call)) (hCourse : Course t plans call plans') :
    Alone (t.perform call).client.books plans' := by
  cases hCourse with
  | stay hEntry =>
      refine ⟨h.apart, fun i id hAbout => ?_, fun i hRenews => ?_⟩
      · rw [Books.Lists, hEntry]
        exact h.listed i id hAbout
      · simp only [Books.Lists, hEntry]
        exact h.peopled i hRenews
  | @turn i p hTurn =>
      have hTurn' : Turn t.client.books (plans i) (t.perform (.advance i)).client.books
          (Function.update plans i p i) := by
        rwa [Function.update_self]
      refine h.turn hFiled (fun hRenews => ?_) hTurn' fun j hOther => Function.update_of_ne hOther _ _
      cases hCaller : t.callers[i]? with
      | none => exact absurd (hPlanned.beyond i hCaller) hTurn.ne_idle
      | some caller =>
          exact hPlanned.plain i caller hCaller (hPlanned.renews i caller hCaller hRenews)
  | @begin operation =>
      have hRenewed : t.Renewed := by
        cases operation with
        | resubscribeAll => exact Traffic.Quiet.renewed hAlone
        | _ => exact hAlone
      refine alone_begin operation (Function.update_self ..)
        (fun j hOther => Function.update_of_ne hOther _ _) (hPlanned.not_renews hRenewed) ?_
      rintro rfl
      exact hPlanned.eq_idle hAlone

variable (configs : ConfigCatalog) (coherence : CoherenceConfig) {cluster : Cluster}
  (hRegistrations : cluster.registrations = ∅) (hBindings : cluster.bindings = ∅)
  (hFair : cluster.faults.Fair)
include hRegistrations hBindings hFair

theorem alone_of_run (calls : List Traffic.Call)
    (hAlone : ∀ step ∈ Traffic.steps (.start configs coherence cluster) calls,
      Traffic.RenewsAlone step) :
    ∃ plans, Upheld (.run (.start configs coherence cluster) calls)
        (Traffic.steps (.start configs coherence cluster) calls) plans ∧
      Alone (Traffic.run (.start configs coherence cluster) calls).client.books plans := by
  induction calls using List.reverseRecOn with
  | nil =>
      refine ⟨_, upheld_start configs coherence hRegistrations hBindings hFair, ?_⟩
      refine ⟨fun _ _ _ _ => rfl, fun i id hAbout => ?_, fun i hRenews => ?_⟩
      · rcases hAbout with hRole | hIntends
        · cases hRole
        · cases hIntends
      · exact absurd hRenews Plan.not_renews_idle
  | append_singleton calls call ih =>
      rw [Traffic.steps, History.steps_concat, ← Traffic.steps] at hAlone ⊢
      rw [Traffic.run, History.run_concat, ← Traffic.run]
      obtain ⟨plans, h, hBefore⟩ := ih fun step hm => hAlone step (List.mem_append_left _ hm)
      have hApart := h.planned.renewsApart (hBefore.undisturbed h.orderly.owned)
      obtain ⟨plans', hAfter, hCourse⟩ := h.perform hApart call
      have hNow := hAlone _ (List.mem_append_right _ (List.mem_singleton_self _))
      exact ⟨plans', hAfter, hBefore.perform h.planned h.orderly.filed hNow hCourse⟩

/-- Callers that renew listeners only while nothing else goes on renew them apart. -/
theorem Traffic.renewsApart_of_alone (calls : List Traffic.Call)
    (hAlone : ∀ step ∈ Traffic.steps (.start configs coherence cluster) calls,
      Traffic.RenewsAlone step) :
    ∀ step ∈ Traffic.steps (.start configs coherence cluster) calls, step.1.RenewsApart := by
  induction calls using List.reverseRecOn with
  | nil => rintro step ⟨⟩
  | append_singleton calls call ih =>
      rw [Traffic.steps, History.steps_concat, ← Traffic.steps] at hAlone ⊢
      have hBefore := fun step hm => hAlone step (List.mem_append_left _ hm)
      intro step hm
      rcases List.mem_append.mp hm with hm | hm
      · exact ih hBefore step hm
      · rw [List.mem_singleton.mp hm]
        obtain ⟨plans, h, hNow⟩ :=
          alone_of_run configs coherence hRegistrations hBindings hFair calls hBefore
        exact h.planned.renewsApart (hNow.undisturbed h.orderly.owned)

end Runs

end NearCache
