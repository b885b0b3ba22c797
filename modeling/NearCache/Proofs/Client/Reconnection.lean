import Mathlib.Data.List.Count
import Mathlib.Logic.Function.Iterate
import NearCache.Proofs.Client.Background
import NearCache.Proofs.Client.Opening
import NearCache.Proofs.Client.Renewal
import NearCache.Proofs.Reconcile.Healing
import NearCache.Proofs.Reconcile.Seeding

/-!
What a cache knows after all listeners were renewed. If it was not coherent before and is now, every
member was asked for a report on its name and the cache was seeded with those that came: it reaches
whatever they agree on until it is told more, and reads no entry from before that.
-/

namespace NearCache

namespace Cache

/-- Repairs the gaps of a cache. -/
def mend (c : Cache) : Cache :=
  c.repairGaps.1

/-- What the reports agree on holds of the cache. -/
def Honours (reports : List MemberReport) (c : Cache) : Prop :=
  ∀ p source sequence, MemberReport.Agree reports c.name p source sequence →
    c.tracker.Reaches p source sequence

theorem honours_seed (c : Cache) (reports : List MemberReport) :
    (c.seed reports).Honours reports :=
  fun _ _ _ hAgree => reaches_seed hAgree

theorem Honours.mends {reports : List MemberReport} {c : Cache} (h : c.Honours reports) (n : Nat) :
    (mend^[n] c).Honours reports := by
  induction n with
  | zero => exact h
  | succ n ih =>
      rw [Function.iterate_succ_apply']
      exact fun p source sequence hAgree => (ih p source sequence hAgree).repairGaps

end Cache

namespace Client

section Bystanders

variable (s : Client) {id : CacheId}

/-- Nothing becomes of a cache but that its gaps are repaired, as often as it may be. -/
def Mends (id : CacheId) (s s' : Client) : Prop :=
  ∃ n, s'.caches[id]? = s.caches[id]?.map Cache.mend^[n]

variable {s} in
theorem mends_of_same {s' : Client} (h : s'.caches[id]? = s.caches[id]?) : s.Mends id s' :=
  ⟨0, h.trans Option.map_id'.symm⟩

theorem mends_repairGaps (ids : List CacheId) : s.Mends id (s.repairGaps ids).1 := by
  induction ids generalizing s with
  | nil => exact mends_of_same rfl
  | cons first rest ih =>
      unfold repairGaps
      cases hKnown : s.caches[first]? with
      | none => exact ih s
      | some cache =>
          obtain ⟨n, hLater⟩ := ih (s.modifyCache first fun _ => cache.repairGaps.1)
          by_cases hSame : first = id
          · subst hSame
            refine ⟨n + 1, hLater.trans ?_⟩
            rw [s.getElem?_modifyCache, if_pos rfl, hKnown]
            rfl
          · exact ⟨n, by rw [hLater, s.getElem?_modifyCache, if_neg hSame]⟩

theorem mends_beginPass (w : WorkerId) (worker : Worker) : s.Mends id (s.beginPass w worker) := by
  have hCaches : (s.beginPass w worker).caches = (s.repairGaps s.coherentCaches).1.caches := by
    unfold beginPass
    dsimp only
    split
    · rfl
    · split <;> rfl
  have hRepaired : s.Mends id (s.repairGaps s.coherentCaches).1 := s.mends_repairGaps _
  obtain ⟨n, hMended⟩ := hRepaired
  exact ⟨n, hCaches ▸ hMended⟩

theorem getElem?_putBack_of_not_mem {ids : List CacheId} (h : id ∉ ids) (caches : List Cache) :
    (s.putBack ids caches).caches[id]? = s.caches[id]? := by
  suffices hPairs : ∀ (pairs : List (CacheId × Cache)) (m : Std.ExtTreeMap CacheId Cache),
      (∀ p ∈ pairs, p.1 ≠ id) → (pairs.foldl (fun m p => m.insert p.1 p.2) m)[id]? = m[id]? by
    refine hPairs _ _ fun p hm hSame => h ?_
    exact hSame ▸ (List.of_mem_zip hm).1
  intro pairs
  induction pairs with
  | nil => exact fun m _ => rfl
  | cons p rest ih =>
      intro m hOthers
      rw [List.forall_mem_cons] at hOthers
      rw [List.foldl_cons, ih _ hOthers.2, Std.ExtTreeMap.getElem?_insert, if_neg]
      exact fun hSame => hOthers.1 (Std.LawfulEqCmp.eq_of_compare hSame)

theorem mends_finishRound {ids : List CacheId} (h : id ∉ ids) (w : WorkerId) (round : Round) :
    s.Mends id (s.finishRound w ids round) := by
  have hOthers : id ∉ ids.filter s.caches.contains := fun hm => h (List.mem_filter.mp hm).1
  have hKept := s.getElem?_putBack_of_not_mem hOthers
    (applyReports (s.cachesOf (ids.filter s.caches.contains)) round.reports).1
  refine mends_of_same (Eq.trans ?_ hKept)
  unfold finishRound
  dsimp only
  split <;> rfl

/-- A worker that does not finish a round over a cache does no more than repair its gaps. -/
theorem mends_stepWorker (w : WorkerId)
    (hOthers : ∀ worker ids round last, s.workers[w]? = some worker →
      worker.stage = .fetching ids round → round.poll s.cluster s.now = .ok last →
      last.isDone = true → id ∉ ids) : s.Mends id (s.stepWorker w).1 := by
  unfold stepWorker
  cases hKnown : s.workers[w]? with
  | none => exact mends_of_same rfl
  | some worker =>
      dsimp only
      cases hStage : worker.stage with
      | ready =>
          cases worker.signalled with
          | true => exact mends_of_same rfl
          | false => exact s.mends_beginPass w worker
      | fetching ids round =>
          dsimp only
          unfold takeReplies
          split
          · exact mends_of_same rfl
          next last hPolled =>
            split
            next hDone =>
              have hOther := hOthers worker ids round last hKnown hStage hPolled hDone
              exact s.mends_finishRound hOther w last
            · exact mends_of_same rfl
      | sleeping due => exact mends_of_same rfl
      | exited => exact mends_of_same rfl
      | aborted => exact mends_of_same rfl

theorem getElem?_deliverTo_of_not_mem {ids : List CacheId} (h : id ∉ ids) (event : Event) :
    (s.deliverTo event ids).1.caches[id]? = s.caches[id]? := by
  induction ids generalizing s with
  | nil => rfl
  | cons first rest ih =>
      rw [List.mem_cons, not_or] at h
      unfold deliverTo
      cases hKnown : s.caches[first]? with
      | none => exact ih s h.2
      | some cache =>
          have hSame := s.getElem?_modifyCache_of_ne id first (fun _ => (cache.onEvent event).1) h.1
          dsimp only
          split
          · exact (ih _ h.2).trans hSame
          · exact hSame

end Bystanders

/-- The round that an action finds over, and seeds a cache with the reports that came. -/
def seeding? (s : Client) (id : CacheId) : Action → Option Round
  | .awaitSeed other round =>
    if other = id then (round.poll s.cluster s.now).toOption.filter Round.isDone else none
  | _ => none

/-- The caches in the directory are asked for in turn, one that is there under one name once. -/
theorem about_registered {s : Client} {id : CacheId} {name : String}
    (hEntry : s.directory[name]? = some id)
    (hOnce : ∀ other, s.directory[other]? = some id → other = name) :
    Action.about id (s.registered.map .resubscribe) = [.resubscribe id] := by
  -- Names occur once in the directory, so an entry that is there under one name only does too.
  have hNodup : s.directory.toList.Nodup := nodup_toList s.directory
  have hOwn : s.directory.toList.filter (·.2 = id) = [(name, id)] := by
    have hSame : ∀ entry ∈ s.directory.toList,
        decide (entry.2 = id) = decide (entry = (name, id)) := by
      rintro ⟨other, found⟩ hm
      rw [Std.ExtTreeMap.mem_toList_iff_getElem?_eq_some] at hm
      refine decide_eq_decide.mpr ⟨?_, congrArg Prod.snd⟩
      rintro rfl
      rw [hOnce other hm]
    have hHere : (name, id) ∈ s.directory.toList :=
      Std.ExtTreeMap.mem_toList_iff_getElem?_eq_some.mpr hEntry
    rw [List.filter_congr hSame, List.filter_eq, List.count_eq_one_of_mem hNodup hHere]
    rfl
  have hAsk : (fun entry : String × CacheId =>
      decide (id ∈ (Action.resubscribe entry.2).mentions)) = fun entry => decide (entry.2 = id) := by
    funext entry
    simp [Action.mentions, eq_comm]
  rw [Action.about, registered, List.map_map, List.filter_map, Function.comp_def]
  exact (congrArg (List.map _) ((congrArg (List.filter · _) hAsk).trans hOwn)).trans rfl

end Client

namespace Traffic

/-- A caller asks all members for their reports on a name, to seed a cache. -/
def AsksToSeed (id : CacheId) (name : String) (round : Round) : Traffic × Call → Prop
  | (t, .advance i) => ∃ caller limit rest, t.callers[i]? = some caller ∧
      caller.activity.todo = .seed id limit :: rest ∧
      round.Asks t.client.cluster.members.size [name]
  | _ => False

/-- The round that a step finds over, and seeds a cache with the reports that came. -/
def seeding? (id : CacheId) : Traffic × Call → Option Round
  | (t, .advance i) =>
    (t.callers[i]?.bind fun caller => caller.activity.todo.head?).bind (t.client.seeding? id)
  | _ => none

/-- A cache is told more: it is delivered an event, or a worker ends a round over it. -/
def Tells (id : CacheId) : Traffic × Call → Prop
  | (t, .deliver name _) => id ∈ t.client.cluster.handlers name
  | (t, .work w) => ∃ worker ids round last, t.client.workers[w]? = some worker ∧
      worker.stage = .fetching ids round ∧ round.poll t.client.cluster t.client.now = .ok last ∧
      last.isDone = true ∧ id ∈ ids
  | _ => False

/-- A cache was seeded, and was told no more since. -/
def SeededLast (id : CacheId) (round : Round) : List (Traffic × Call) → Prop :=
  History.Since (fun _ step => seeding? id step = some round) (Tells id)

/-- The round was begun in the course of these steps. -/
def Asked (id : CacheId) (history : List (Traffic × Call)) (name : String) (round : Round) : Prop :=
  ∃ step ∈ history, AsksToSeed id name round step

/-- Where the renewal of a cache stands: it has not begun, it is under way, or the cache has been
seeded and honours the reports unless it was told more since. -/
inductive Stands (id : CacheId) (history : List (Traffic × Call)) (s : Client)
    (todo : List Action) : Prop
  | outset {name : String} {c : Cache} (hTodo : todo = Action.resubscribeEverything)
      (hEntry : s.directory[name]? = some id)
      (hOnce : ∀ other, s.directory[other]? = some id → other = name)
      (hCache : s.caches[id]? = some c) (hInvalidates : c.face.invalidates = true)
      (hBefore : c.face.isCoherent = false)
  | renewing {c : Cache} (hCache : s.caches[id]? = some c) (hRenews : ∀ a ∈ todo, a.Renews)
      (hCourse : Renewing id (Asked id history) c.face (Action.about id todo))
  | seeded {c : Cache} {round : Round} (hCache : s.caches[id]? = some c)
      (hRenews : ∀ a ∈ todo, a.Renews) (hOver : Action.about id todo = [])
      (hCoherent : c.face.isCoherent = true) (hAsked : Asked id history c.face.name round)
      (hSeeded : ∃ step ∈ history, seeding? id step = some round)
      (hHonours : SeededLast id round history → c.Honours round.reports)

section Turns

variable {id : CacheId} {history : List (Traffic × Call)} {t : Traffic} {i : Nat} {caller : Caller}
  {action : Action} {rest : List Action} {round : Round} {step : Traffic × Call}

theorem Asked.concat {name : String} (h : Asked id history name round) (step : Traffic × Call) :
    Asked id (history ++ [step]) name round := by
  obtain ⟨asking, hm, hAsks⟩ := h
  exact ⟨asking, List.mem_append_left _ hm, hAsks⟩

theorem Asked.poll {name : String} (h : Asked id history name round) {c : Cluster} {now : Nat}
    {later : Round} (hPolled : round.poll c now = .ok later) : Asked id history name later := by
  obtain ⟨⟨t, call⟩, hm, hAsks⟩ := h
  refine ⟨(t, call), hm, ?_⟩
  cases call with
  | advance i =>
      obtain ⟨caller, limit, rest, hCaller, hHead, hRound⟩ := hAsks
      exact ⟨caller, limit, rest, hCaller, hHead, hRound.poll hPolled⟩
  | _ => exact hAsks.elim

/-- A cache that was seeded last before a step that does not seed it was not told more in it. -/
theorem SeededLast.of_concat (h : SeededLast id round (history ++ [step]))
    (hNot : seeding? id step = none) : SeededLast id round history ∧ ¬Tells id step := by
  refine ((History.since_concat history step).mp h).resolve_left fun hSeeds => ?_
  cases hNot.symm.trans hSeeds

/-- A step that seeds no cache, changes no entry of the directory and does no more to the cache than
to repair its gaps, unless it tells it more, leaves the renewal where it stands. -/
theorem Stands.stay {s s' : Client} {todo : List Action} (h : Stands id history s todo)
    (hNot : seeding? id step = none) (hDirectory : s'.books.entry = s.books.entry)
    (hFace : s'.books.face id = s.books.face id) (hMends : ¬Tells id step → s.Mends id s') :
    Stands id (history ++ [step]) s' todo := by
  have hKept {c : Cache} (hCache : s.caches[id]? = some c) :
      ∃ c', s'.caches[id]? = some c' ∧ c'.face = c.face := by
    refine Option.map_eq_some_iff.mp (hFace.trans ?_)
    simp [Client.books, hCache]
  cases h with
  | outset hTodo hEntry hOnce hCache hInvalidates hBefore =>
      obtain ⟨c', hCache', hSame⟩ := hKept hCache
      rw [← hSame] at hInvalidates hBefore
      exact .outset hTodo ((congrFun hDirectory _).trans hEntry)
        (fun other hOther => hOnce other ((congrFun hDirectory other).symm.trans hOther)) hCache'
        hInvalidates hBefore
  | renewing hCache hRenews hCourse =>
      obtain ⟨c', hCache', hSame⟩ := hKept hCache
      rw [← hSame] at hCourse
      exact .renewing hCache' hRenews (hCourse.imp fun _ _ hAsked => hAsked.concat step)
  | @seeded c round hCache hRenews hOver hCoherent hAsked hSeeded hHonours =>
      obtain ⟨c', hCache', hSame⟩ := hKept hCache
      rw [← hSame] at hCoherent hAsked
      obtain ⟨seeding, hm, hSeeds⟩ := hSeeded
      refine .seeded hCache' hRenews hOver hCoherent (hAsked.concat step)
        ⟨seeding, List.mem_append_left _ hm, hSeeds⟩ fun hSince => ?_
      -- To be seeded last even after this step, the cache must not have been told more in it.
      obtain ⟨hBefore, hUntold⟩ := hSince.of_concat hNot
      obtain ⟨n, hMended⟩ := hMends hUntold
      rw [hCache', hCache, Option.map_some, Option.some.injEq] at hMended
      rw [hMended]
      exact (hHonours hBefore).mends n

variable (hCaller : t.callers[i]? = some caller) (hHead : caller.activity.todo = action :: rest)

include hCaller hHead

theorem seeding?_advance : seeding? id (t, .advance i) = t.client.seeding? id action := by
  rw [seeding?, hCaller, Option.bind_some, hHead]
  rfl

/-- A turn of the caller that does not speak of a cache leaves its renewal where it stands. -/
theorem Stands.spare (h : Stands id history t.client (action :: rest)) (hRenews : action.Renews)
    (hOther : id ∉ action.mentions) (me : ActivityId) :
    (t.client.perform me action).Leads fun s' todo =>
      Stands id (history ++ [(t, .advance i)]) s' (todo ++ rest) := by
  refine (Client.spares_perform me hRenews hOther).imp fun s' todo hSpared => ?_
  obtain ⟨hSame, hTodo⟩ := hSpared
  have hAbout : Action.about id (todo ++ rest) = Action.about id (action :: rest) := by
    rw [Action.about_append, Action.about_of_spared fun a hm => (hTodo a hm).2,
      Action.about_cons_of_not_mem hOther, List.nil_append]
  have hAll (hBefore : ∀ a ∈ action :: rest, a.Renews) : ∀ a ∈ todo ++ rest, a.Renews := by
    intro a hm
    rcases List.mem_append.mp hm with hm | hm
    · exact (hTodo a hm).1
    · exact hBefore a (List.mem_cons_of_mem _ hm)
  cases h with
  | outset hBegun =>
      cases hBegun
      exact hRenews.elim
  | renewing hCache hBefore hCourse =>
      refine .renewing (hSame.trans hCache) (hAll hBefore) ?_
      rw [hAbout]
      exact hCourse.imp fun _ _ hAsked => hAsked.concat _
  | seeded hCache hBefore hOver hCoherent hAsked hSeeded hHonours =>
      have hNot : seeding? id (t, .advance i) = none := by
        rw [seeding?_advance hCaller hHead]
        cases action with
        | awaitSeed other round =>
            have hElse : other ≠ id := fun hSame => hOther (hSame ▸ List.mem_singleton_self other)
            exact if_neg hElse
        | _ => rfl
      obtain ⟨seeding, hm, hSeeds⟩ := hSeeded
      exact .seeded (hSame.trans hCache) (hAll hBefore) (hAbout.trans hOver) hCoherent
        (hAsked.concat _) ⟨seeding, List.mem_append_left _ hm, hSeeds⟩
        fun hSince => hHonours (hSince.of_concat hNot).1

/-- A caller that waits for reports on a cache goes on waiting, or seeds the cache with them. -/
theorem collect {c : Cache} (hCache : t.client.caches[id]? = some c)
    (hAction : action = .awaitSeed id round) (hRest : ∀ a ∈ rest, a.Renews)
    (hNothing : Action.about id rest = []) (hCoherent : c.face.isCoherent = true)
    (hAsked : Asked id history c.face.name round) (me : ActivityId) :
    (t.client.perform me action).Leads fun s' todo =>
      Stands id (history ++ [(t, .advance i)]) s' (todo ++ rest) := by
  subst hAction
  have hStill := hAsked.concat (t, Call.advance i)
  refine (Client.perform_awaitSeed me round).imp fun s' todo hNext => ?_
  rcases hNext with ⟨rfl, later, hLater, rfl⟩ | ⟨rfl, last, hPolled, hDone, rfl⟩
  · have hAgain : Asked id (history ++ [(t, .advance i)]) c.face.name later := by
      rcases hLater with rfl | hPolled
      · exact hStill
      · exact hStill.poll hPolled
    have hAbout : Action.about id ([.awaitSeed id later] ++ rest) = [.awaitSeed id later] := by
      rw [List.singleton_append, Action.about_cons_of_mem (List.mem_singleton_self id), hNothing]
    refine .renewing hCache (List.forall_mem_cons.mpr ⟨trivial, hRest⟩) ?_
    rw [hAbout]
    exact .collecting later hCoherent hAgain
  · have hSeeded := Client.getElem?_modifyCache_self hCache (·.seed last.reports)
    have hSeeds : seeding? id (t, .advance i) = some last := by
      rw [seeding?_advance hCaller hHead, Client.seeding?, if_pos rfl, hPolled]
      exact Option.filter_some_pos hDone
    exact .seeded hSeeded hRest hNothing hCoherent (hStill.poll hPolled)
      ⟨_, List.mem_append_right _ (List.mem_singleton_self _), hSeeds⟩
      fun _ => c.honours_seed last.reports

/-- A turn of the caller that speaks of the cache brings its renewal on. -/
theorem further {c : Cache} (hCache : t.client.caches[id]? = some c)
    (hRest : ∀ a ∈ rest, a.Renews)
    (hCourse : Renewing id (Asked id history) c.face (action :: Action.about id rest))
    (me : ActivityId) :
    (t.client.perform me action).Leads fun s' todo =>
      Stands id (history ++ [(t, .advance i)]) s' (todo ++ rest) := by
  -- Only a caller that waits for reports can be through with the cache after this turn.
  by_cases hWaits : ∃ round, action = .awaitSeed id round
  · obtain ⟨round, rfl⟩ := hWaits
    generalize hNothing : Action.about id rest = later at hCourse
    cases hCourse with
    | collecting round hCoherent hAsked =>
        exact collect hCaller hHead hCache rfl hRest hNothing hCoherent hAsked me
  · have hLater := hCourse.imp fun _ _ hAsked => hAsked.concat (t, Call.advance i)
    have hAsked : ∀ limit round, action = .seed id limit →
        (t.client.cluster.beginRound t.client.now [c.name] limit).2 = .ok round →
        Asked id (history ++ [(t, .advance i)]) c.name round := by
      rintro limit round rfl hBegun
      exact ⟨_, List.mem_append_right _ (List.mem_singleton_self _), caller, limit, rest, hCaller,
        hHead, Cluster.asks_beginRound hBegun⟩
    refine (Client.furthers_perform me hCache hLater (fun round hWait => hWaits ⟨round, hWait⟩)
      hAsked).imp fun s' todo hFurther => ?_
    obtain ⟨c', hCache', hTodo, hCourse'⟩ := hFurther
    refine .renewing hCache' (fun a hm => ?_) (by rwa [Action.about_append])
    exact (List.mem_append.mp hm).elim (hTodo a) (hRest a)

/-- A turn of the caller takes the renewal of a cache to where it stands next, unless a fault stops
it. -/
theorem Stands.perform (h : Stands id history t.client (action :: rest)) (me : ActivityId) :
    (t.client.perform me action).Leads fun s' todo =>
      Stands id (history ++ [(t, .advance i)]) s' (todo ++ rest) := by
  have hStands := h
  cases h with
  | outset hBegun hEntry hOnce hCache hInvalidates hBefore =>
      cases hBegun
      have hTurn : Action.about id (t.client.registered.map .resubscribe ++ [.conclude .done]) =
          [.resubscribe id] := by
        rw [Action.about_append, Client.about_registered hEntry hOnce]
        rfl
      refine .renewing hCache ?_ (hTurn ▸ .ahead hInvalidates hBefore)
      intro a hm
      rcases List.mem_append.mp hm with hm | hm
      · obtain ⟨other, -, rfl⟩ := List.mem_map.mp hm
        trivial
      · rw [List.mem_singleton.mp hm]
        trivial
  | renewing hCache hAll hCourse =>
      by_cases hMentions : id ∈ action.mentions
      · rw [Action.about_cons_of_mem hMentions] at hCourse
        have hRest : ∀ a ∈ rest, a.Renews := fun a hm => hAll a (List.mem_cons_of_mem _ hm)
        exact further hCaller hHead hCache hRest hCourse me
      · exact hStands.spare hCaller hHead (hAll action List.mem_cons_self) hMentions me
  | seeded hCache hAll hOver =>
      have hOther : id ∉ action.mentions := by
        intro hMentions
        rw [Action.about_cons_of_mem hMentions] at hOver
        cases hOver
      exact hStands.spare hCaller hHead (hAll action List.mem_cons_self) hOther me

end Turns

section Runs

variable {id : CacheId} {history : List (Traffic × Call)} {t : Traffic}

/-- The only caller renews all listeners: a fault has stopped it, or the renewal of a cache stands
somewhere. -/
def Reconnects (id : CacheId) (history : List (Traffic × Call)) (t : Traffic) : Prop :=
  ∃ caller, t.callers = [caller] ∧
    ((caller.activity.isOver ∧ caller.Aborted) ∨
      Stands id history t.client caller.activity.todo)

theorem Reconnects.stay {t' : Traffic} {step : Traffic × Call} (h : Reconnects id history t)
    (hNot : seeding? id step = none) (hCallers : t'.callers = t.callers)
    (hDirectory : t'.client.books.entry = t.client.books.entry)
    (hFace : t'.client.books.face id = t.client.books.face id)
    (hMends : ¬Tells id step → t.client.Mends id t'.client) :
    Reconnects id (history ++ [step]) t' := by
  obtain ⟨caller, hCaller, hWhere⟩ := h
  refine ⟨caller, hCallers.trans hCaller, hWhere.imp_right fun hStands => ?_⟩
  exact hStands.stay hNot hDirectory hFace hMends

theorem Reconnects.advance (h : Reconnects id history t) (i : Nat) :
    Reconnects id (history ++ [(t, .advance i)]) (t.advance i) := by
  have hIdle (hNot : seeding? id (t, .advance i) = none) (hSame : t.advance i = t) :
      Reconnects id (history ++ [(t, .advance i)]) (t.advance i) := by
    rw [hSame]
    exact h.stay hNot rfl rfl rfl fun _ => Client.mends_of_same rfl
  cases hCaller : t.callers[i]? with
  | none =>
      refine hIdle ?_ (advance_of_isOver fun caller hSome => ?_)
      · rw [seeding?, hCaller]
        rfl
      · cases hCaller.symm.trans hSome
  | some caller =>
      -- There is one caller, and this is its turn.
      obtain ⟨only, hOnly, hWhere⟩ := h
      obtain ⟨rfl, rfl⟩ : i = 0 ∧ caller = only := by
        rw [hOnly] at hCaller
        obtain ⟨hLess, hSame⟩ := List.getElem?_eq_some_iff.mp hCaller
        obtain rfl : i = 0 := Nat.lt_one_iff.mp hLess
        exact ⟨rfl, hSame.symm⟩
      cases hHead : caller.activity.todo with
      | nil =>
          refine hIdle ?_ (advance_of_isOver fun other hOther => ?_)
          · rw [seeding?, hCaller, Option.bind_some, hHead]
            rfl
          · cases hCaller.symm.trans hOther
            exact List.isEmpty_iff.mpr hHead
      | cons action rest =>
          have hStands : Stands id history t.client (action :: rest) := by
            refine hHead ▸ hWhere.resolve_left fun hOver => ?_
            cases hHead.symm.trans (List.isEmpty_iff.mp hOver.1)
          have hTurn := hStands.perform hCaller hHead caller.activity.id
          have hNext : (t.advance 0).callers =
              [{ caller with activity := (t.client.advance caller.activity).result.2 }] := by
            rw [Traffic.advance, hCaller, hOnly]
            rfl
          have hClient : (t.advance 0).client = (t.client.advance caller.activity).result.1 := by
            rw [Traffic.advance, hCaller]
          refine ⟨_, hNext, ?_⟩
          rw [hClient]
          unfold Client.advance
          rw [hHead]
          dsimp only
          cases hProgress : t.client.perform caller.activity.id action with
          | waiting s' again =>
              rw [hProgress] at hTurn
              exact .inr hTurn
          | moved s' todo outcome =>
              rw [hProgress] at hTurn
              exact .inr hTurn
          | stopped s' fault => exact .inl ⟨rfl, fault, rfl⟩

theorem Reconnects.work (h : Reconnects id history t) (w : WorkerId) :
    Reconnects id (history ++ [(t, .work w)]) (t.perform (.work w)) := by
  simp only [perform]
  split_ifs
  · have hMends : ¬Tells id (t, .work w) → t.client.Mends id (t.client.stepWorker w).1 := by
      refine fun hUntold => t.client.mends_stepWorker w ?_
      intro worker ids round last hWorker hStage hPolled hDone hm
      exact hUntold ⟨worker, ids, round, last, hWorker, hStage, hPolled, hDone, hm⟩
    rcases t.client.books_stepWorker (w := w) with hSame | ⟨-, hRetired⟩
    · exact h.stay rfl rfl (congrArg Books.entry hSame)
        (congrFun (congrArg Books.face hSame) _) hMends
    · exact h.stay rfl rfl ((congrArg Books.entry hRetired).trans rfl)
        (congrFun (congrArg Books.face hRetired) _) hMends
  · exact h.stay rfl rfl rfl rfl fun _ => Client.mends_of_same rfl

theorem Reconnects.perform (h : Reconnects id history t) {call : Call}
    (hCall : ∀ operation, call ≠ .begin operation) :
    Reconnects id (history ++ [(t, call)]) (t.perform call) := by
  cases call with
  | begin operation => exact absurd rfl (hCall operation)
  | advance i => exact h.advance i
  | work w => exact h.work w
  | wait millis =>
      exact h.stay rfl rfl rfl rfl fun _ => Client.mends_of_same rfl
  | change conditions =>
      exact h.stay rfl rfl rfl rfl fun _ => Client.mends_of_same rfl
  | deliver name event =>
      have hBooks := t.client.books_deliver name event
      exact h.stay rfl rfl (congrArg Books.entry hBooks)
        (congrFun (congrArg Books.face hBooks) _)
        fun hUntold => Client.mends_of_same (t.client.getElem?_deliverTo_of_not_mem hUntold event)

/-- In a run that does nothing but to renew all listeners, the renewal of a cache that was not
coherent stands somewhere, unless a fault has stopped it. -/
theorem reconnects_of_run {s : Client} {name : String} {c : Cache}
    (hEntry : s.directory[name]? = some id)
    (hOnce : ∀ other, s.directory[other]? = some id → other = name)
    (hCache : s.caches[id]? = some c) (hInvalidates : c.config.invalidateOnChange = true)
    (hBefore : c.isCoherent = false) {calls : List Call}
    (hNone : ∀ operation, .begin operation ∉ calls) :
    Reconnects id (steps ⟨s, []⟩ (.begin .resubscribeAll :: calls))
      (run ⟨s, []⟩ (.begin .resubscribeAll :: calls)) := by
  induction calls using List.reverseRecOn with
  | nil => exact ⟨_, rfl, .inr (.outset rfl hEntry hOnce hCache hInvalidates hBefore)⟩
  | append_singleton calls call ih =>
      have hReconnects := ih fun operation hm => hNone operation (List.mem_append_left _ hm)
      rw [← List.cons_append, run, steps, History.run_concat, History.steps_concat, ← run, ← steps]
      refine hReconnects.perform fun operation hSame => hNone operation ?_
      exact hSame ▸ List.mem_append_right _ (List.mem_singleton_self _)

end Runs

end Traffic

/-- A cache that was not coherent before all listeners were renewed gets events that clear it after
that, or it is coherent. In that case every member was asked for a report on its name, the cache was
seeded with those that came, and unless it was told more since, it reaches every number that they
agree on. No entry from before that under another source or below the number can be read. -/
theorem renewal_seeds {s : Client} {name : String} {id : CacheId} {c : Cache}
    (hEntry : s.directory[name]? = some id)
    (hOnce : ∀ other, s.directory[other]? = some id → other = name)
    (hCache : s.caches[id]? = some c) (hInvalidates : c.config.invalidateOnChange = true)
    (hBefore : c.isCoherent = false) (calls : List Traffic.Call)
    (hNone : ∀ operation, .begin operation ∉ calls) :
    let start : Traffic := ⟨s, []⟩
    let t := start.run (.begin .resubscribeAll :: calls)
    let history := start.steps (.begin .resubscribeAll :: calls)
    t.Quiet → (∀ caller ∈ t.callers, ¬caller.Aborted) →
      ∃ c', t.client.caches[id]? = some c' ∧
        (c'.mode = .legacy ∨
          (c'.isCoherent ∧
            ∃ round, Traffic.Asked id history c'.name round ∧
              (∃ step ∈ history, Traffic.seeding? id step = some round) ∧
              (Traffic.SeededLast id round history → ∀ p source sequence,
                MemberReport.Agree round.reports c'.name p source sequence →
                c'.tracker.Reaches p source sequence ∧
                  ∀ key e now, c'.store.slots.state? key = some (.ready e) →
                    e.stamp.partition = p →
                    (e.stamp.source ≠ source ∨ e.stamp.sequence < sequence) →
                    (c'.get key now).2 = none))) := by
  intro start t history hQuiet hSound
  obtain ⟨caller, hCallers, hWhere⟩ :=
    Traffic.reconnects_of_run hEntry hOnce hCache hInvalidates hBefore hNone
  have hCaller : caller ∈ t.callers := hCallers ▸ List.mem_singleton_self caller
  have hStands : Traffic.Stands id history t.client [] := by
    rw [← List.isEmpty_iff.mp (hQuiet caller hCaller)]
    exact hWhere.resolve_left fun ⟨_, hAborted⟩ => hSound caller hCaller hAborted
  cases hStands with
  | outset hBegun => cases hBegun
  | @renewing c' hCache' hRenews hCourse =>
      have hCourse : Renewing id (Traffic.Asked id history) c'.face [] := hCourse
      cases hCourse with
      | legacy hMode => exact ⟨c', hCache', .inl hMode⟩
  | @seeded c' round hCache' hRenews hNothing hCoherent hAsked hSeeded hHonours =>
      refine ⟨c', hCache', .inr ⟨hCoherent, round, hAsked, hSeeded, ?_⟩⟩
      intro hSince p source sequence hAgree
      have hReached := hHonours hSince p source sequence hAgree
      refine ⟨hReached, fun key e now hEntry hPartition hOld => ?_⟩
      subst hPartition
      exact (Cache.get_of_stale now hEntry (hReached.isStale hOld)).1

namespace Traffic

/-- Two members. One owns a partition of the cache "orders", the other one is slow. -/
def owners : Array Member :=
  #[⟨Cluster.localAddress 0, ⟨[(3, 7)], [("users", [(3, 90)]), ("orders", [(3, 40)])]⟩, none, false,
      false⟩,
    ⟨Cluster.localAddress 1, ⟨[(5, 8)], [("orders", [(5, 1)])]⟩, some 50, false, false⟩]

/-- A cache that holds a listener and an entry, stamped with what was known of its partition. -/
def heldCache (shape : EventShape) (known : PartitionState) : Cache :=
  ((((Cache.create "orders" (.ofName "orders") .default).installSubscription
    ⟨"orders", "reg-1", shape⟩).withTracker ((Tracker.empty 10).setState 3 known)).put
      ⟨[1]⟩ ⟨[9]⟩ 3 0 0).1

/-- A client with this cache in its directory. -/
def heldClient (c : Cache) (faults : ClusterFaults) : Client :=
  { Client.create (.ofList [.ofName "orders"]) .default { Cluster.ofSize 2 with
      members := owners
      faults := faults
      registrations := (∅ : Std.ExtTreeMap RegistrationId String).insert "reg-1" "orders"
      bindings := (∅ : Std.ExtTreeMap RegistrationId CacheId).insert "reg-1" 0
      nextRegistration := 2 } with
    caches := (∅ : Std.ExtTreeMap CacheId Cache).insert 0 c
    nextCache := 1
    directory := (∅ : Std.ExtTreeMap String CacheId).insert "orders" 0 }

theorem agree_owners :
    MemberReport.Agree (owners.toList.map Member.report) "orders" 3 7 40 :=
  ⟨⟨_, List.mem_cons_self, by decide, by decide⟩, by simp [owners]⟩

/-- Where nothing is told to a cache, it was seeded last by whatever seeded it. -/
theorem seededLast_of_untold {id : CacheId} {round : Round} {history : List (Traffic × Call)}
    (hSeeded : ∃ step ∈ history, seeding? id step = some round)
    (hUntold : ∀ step ∈ history, ¬Tells id step) : SeededLast id round history := by
  obtain ⟨step, hm, hSeeds⟩ := hSeeded
  obtain ⟨before, after, rfl⟩ := List.append_of_mem hm
  refine ⟨before, step, after, rfl, hSeeds, fun later hLater => hUntold later ?_⟩
  exact List.mem_append_right _ (List.mem_cons_of_mem _ hLater)

/-- What the caller does until all listeners are renewed. The slow member is waited for. -/
def untilSeeded : List Call :=
  List.replicate 7 (.advance 0) ++ .wait 50 :: List.replicate 3 (.advance 0)

end Traffic

/-- A cache that got events without sequence numbers before is seeded with the reports of both
members, and does not read an entry from that time. -/
theorem renewal_seeds_legacy_cache :
    let c := Traffic.heldCache .legacy .initial
    let start : Traffic := ⟨Traffic.heldClient c .none, []⟩
    let t := start.run (.begin .resubscribeAll :: Traffic.untilSeeded)
    (c.get ⟨[1]⟩ 0).2 = some (.binary ⟨[9]⟩) ∧
      ∃ c', t.client.caches[0]? = some c' ∧ c'.mode = .repairable ∧ c'.tracker.Reaches 3 7 40 ∧
        ∀ now, (c'.get ⟨[1]⟩ now).2 = none := by
  intro c start
  -- The calls are kept from view, or the run would be evaluated at every comparison.
  obtain ⟨calls, hCalls⟩ : ∃ calls, Traffic.untilSeeded = calls := ⟨_, rfl⟩
  rw [hCalls]
  intro t
  have hOnce : ∀ other, start.client.directory[other]? = some 0 → other = "orders" := by
    intro other hOther
    simp only [start, Traffic.heldClient, Std.ExtTreeMap.getElem?_insert] at hOther
    split at hOther
    next hSame => exact (Std.LawfulEqCmp.eq_of_compare hSame).symm
    · simp at hOther
  have hNone : ∀ operation, .begin operation ∉ calls := by
    simp [← hCalls, Traffic.untilSeeded]
  have hUntold : ∀ step ∈ start.steps (.begin .resubscribeAll :: calls), ¬Traffic.Tells 0 step := by
    rintro ⟨before, call⟩ hm hTells
    have hCall := History.call_mem_of_mem_steps hm
    cases call with
    | work w => simp [← hCalls, Traffic.untilSeeded] at hCall
    | deliver name event => simp [← hCalls, Traffic.untilSeeded] at hCall
    | _ => exact hTells
  have hRounds : ((start.steps (.begin .resubscribeAll :: calls)).filterMap
      (Traffic.seeding? 0)).map Round.reports = [Traffic.owners.toList.map Member.report] := by
    rw [← hCalls]
    decide
  have hShown : t.client.caches[0]?.map
      (fun c' => (c'.name, c'.mode, c'.store.slots.state? ⟨[1]⟩)) =
      some ("orders", .repairable, some (.ready (.create ⟨[1]⟩ (.binary ⟨[9]⟩) ⟨3, 0, 0⟩ 0))) := by
    simp only [t, ← hCalls]
    decide
  have hQuiet : t.Quiet ∧ ∀ caller ∈ t.callers, ¬caller.Aborted := by
    simp only [t, ← hCalls]
    decide
  obtain ⟨c', hCache, hSettled⟩ := renewal_seeds (s := start.client) rfl hOnce rfl rfl (by decide)
    calls hNone hQuiet.1 hQuiet.2
  have hCache : t.client.caches[0]? = some c' := hCache
  simp only [hCache, Option.map_some, Option.some.injEq, Prod.mk.injEq] at hShown
  obtain ⟨hName, hMode, hEntry⟩ := hShown
  obtain ⟨-, round, -, hSeeded, hHonours⟩ := hSettled.resolve_left (by simp [hMode])
  obtain ⟨step, hm, hSeeds⟩ := hSeeded
  have hReports : round.reports = Traffic.owners.toList.map Member.report := by
    have hRound := List.mem_map_of_mem (f := Round.reports)
      (List.mem_filterMap.mpr ⟨step, hm, hSeeds⟩)
    rw [hRounds] at hRound
    exact List.mem_singleton.mp hRound
  have hLast := Traffic.seededLast_of_untold ⟨step, hm, hSeeds⟩ hUntold
  have hAgree : MemberReport.Agree round.reports c'.name 3 7 40 := by
    rw [hReports, hName]
    exact Traffic.agree_owners
  obtain ⟨hReached, hStale⟩ := hHonours hLast 3 7 40 hAgree
  refine ⟨by decide, c', hCache, hMode, hReached, fun now => ?_⟩
  exact hStale _ _ now hEntry rfl (.inl (by decide))

namespace Traffic

/-- The cache of a client is in this mode, does not reach what the members agree on, and reads the
entry from below that. -/
def Lags (t : Traffic) (mode : CoherenceMode) : Prop :=
  ∃ c, t.client.caches[0]? = some c ∧ c.mode = mode ∧ ¬c.tracker.Reaches 3 7 40 ∧
    (c.get ⟨[1]⟩ 0).2 = some (.binary ⟨[9]⟩)

theorem lags_of_cache {t : Traffic} {mode : CoherenceMode}
    (h : t.client.caches[0]?.map (fun c =>
      (c.mode, c.tracker.partitions[(3 : PartitionId)]?, (c.get ⟨[1]⟩ 0).2)) =
        some (mode, some ⟨7, 20, 20, 0⟩, some (.binary ⟨[9]⟩))) : t.Lags mode := by
  obtain ⟨c, hCache, hShown⟩ := Option.map_eq_some_iff.mp h
  simp only [Prod.mk.injEq] at hShown
  obtain ⟨hMode, hKnown, hRead⟩ := hShown
  refine ⟨c, hCache, hMode, ?_, hRead⟩
  rintro ⟨m, hKnown', hReached⟩
  cases hKnown.symm.trans hKnown'
  exact absurd hReached.floor (by decide)

end Traffic

/-- A cache that was coherent before is not seeded when its listener is refused, nor when it is
granted after that. No member is asked, and both times the cache reads an entry from below the number
that the members agree on. -/
theorem coherent_renewal_is_unseeded :
    let c := Traffic.heldCache .repairable ⟨7, 20, 20, 0⟩
    let faults := { ClusterFaults.none with refuseListeners := true }
    let start : Traffic := ⟨Traffic.heldClient c faults, []⟩
    let refused := start.run (.begin .resubscribeAll :: List.replicate 8 (.advance 0))
    let granted := refused.run (.change ⟨Traffic.owners, ⟨4, 2, 0⟩, false, none⟩ ::
      .begin .resubscribeAll :: List.replicate 7 (.advance 1))
    MemberReport.Agree (Traffic.owners.toList.map Member.report) "orders" 3 7 40 ∧
      (refused.Quiet ∧ refused.Lags .reconciledOnly) ∧
      (granted.Quiet ∧ granted.Lags .repairable) ∧ granted.client.cluster.fetchCount = 0 := by
  intro c faults start refused granted
  have hRefused : refused.Lags .reconciledOnly := Traffic.lags_of_cache (by decide)
  have hGranted : granted.Lags .repairable := Traffic.lags_of_cache (by decide)
  exact ⟨Traffic.agree_owners, ⟨by decide, hRefused⟩, ⟨by decide, hGranted⟩, by decide⟩

end NearCache
