import Mathlib.Data.List.Dedup
import NearCache.Proofs.Store.Recency

/-!
The order of the slots of a store is the order of the last uses of their keys: the slot that has to
go is the one whose last put, reservation or hit is the earliest of all.
-/

namespace NearCache

/-- The keys in the order of their last use, after one more was used or none. -/
def refresh (keys : List Data) : Option Data → List Data
  | some key => keys.filter (· ≠ key) ++ [key]
  | none => keys

theorem refresh_sublist {keys keys' : List Data} (h : keys.Sublist keys') (used : Option Data) :
    (refresh keys used).Sublist (refresh keys' used) := by
  cases used with
  | none => exact h
  | some key => exact (h.filter _).append_right [key]

theorem dedup_concat (keys : List Data) (used : Option Data) :
    (keys ++ used.toList).dedup = refresh keys.dedup used := by
  cases used with
  | none => simp [refresh]
  | some key =>
      induction keys with
      | nil => simp [refresh]
      | cons first rest ih =>
          have hIh : (rest ++ [key]).dedup = rest.dedup.filter (· ≠ key) ++ [key] := ih
          have hGoal : (first :: (rest ++ [key])).dedup =
              (first :: rest).dedup.filter (· ≠ key) ++ [key] := by
            by_cases hRest : first ∈ rest
            · rw [List.dedup_cons_of_mem (List.mem_append_left _ hRest), List.dedup_cons_of_mem hRest,
                hIh]
            · by_cases hKey : first = key
              · subst hKey
                rw [List.dedup_cons_of_mem (List.mem_append_right _ (List.mem_singleton_self _)),
                  List.dedup_cons_of_notMem hRest, hIh]
                simp
              · rw [List.dedup_cons_of_notMem (by simp [hRest, hKey]), List.dedup_cons_of_notMem hRest,
                  hIh]
                simp [hKey]
          exact hGoal

namespace Recency

variable {ν : Type} (r : Recency ν) (key : Data)

def keys : List Data :=
  r.slots.map Prod.fst

theorem keys_use (state : SlotState ν) : (r.use key state).keys = refresh r.keys (some key) := by
  simp [keys, use, refresh, List.filter_map, Function.comp_def]

theorem keys_drop : (r.drop key).keys.Sublist r.keys :=
  List.filter_sublist.map Prod.fst

theorem keys_fill (state : SlotState ν) : (r.fill key state).keys = r.keys := by
  unfold keys fill
  rw [List.map_map]
  refine List.map_congr_left fun slot _ => ?_
  by_cases hKey : slot.1 = key <;> simp [hKey]

theorem keys_makeRoom : r.makeRoom.1.keys.Sublist r.keys := by
  unfold makeRoom
  split_ifs
  · exact List.Sublist.refl _
  cases r.limits.eviction with
  | random => exact List.Sublist.refl _
  | none => exact List.Sublist.refl _
  | lru =>
      cases hSlots : r.slots with
      | nil => exact List.Sublist.refl _
      | cons first rest =>
          have hKeys : r.keys = first.1 :: rest.map Prod.fst := by rw [keys, hSlots, List.map_cons]
          rw [hKeys]
          exact List.sublist_cons_self first.1 _

theorem keys_put (value : ν) (stamp : Position) (now : Instant) :
    (r.put key value stamp now).1.keys.Sublist
      (refresh r.keys (if (r.put key value stamp now).2 then some key else none)) := by
  unfold put
  generalize hTouched : r.touch stamp.partition = t
  have hSame : r.keys = t.keys := hTouched ▸ rfl
  rw [hSame]
  cases hHas : t.has key with
  | true => simp [hHas, keys_use]
  | false =>
      cases hRoom : t.makeRoom.2 with
      | true => simpa [hHas, hRoom, keys_use] using refresh_sublist t.keys_makeRoom (some key)
      | false => simp [hHas, hRoom, refresh]

theorem keys_reserve (stamp : Position) :
    (r.reserve key stamp).1.keys.Sublist
      (refresh r.keys ((r.reserve key stamp).2.map fun _ => key)) := by
  unfold reserve
  generalize hTouched : r.touch stamp.partition = t
  have hSame : r.keys = t.keys := hTouched ▸ rfl
  rw [hSame]
  cases hHas : t.has key with
  | true => simp [hHas, refresh]
  | false =>
      cases hRoom : t.makeRoom.2 with
      | true =>
          have hHeld : (t.makeRoom.1.hold key stamp).keys = refresh t.makeRoom.1.keys (some key) :=
            t.makeRoom.1.keys_use key _
          simpa [hHas, hRoom, hHeld] using refresh_sublist t.keys_makeRoom (some key)
      | false => simp [hHas, hRoom, refresh]

theorem keys_publish (id : ReservationId) (value : ν) (now : Instant) :
    (r.publish key id value now).1.keys = r.keys := by
  unfold publish
  cases r.slots.lookup key with
  | none => rfl
  | some state =>
      cases state with
      | ready e => rfl
      | reserved own stamp =>
          dsimp only
          split_ifs
          · exact r.keys_fill key _
          · rfl

theorem keys_cancel (id : ReservationId) : (r.cancel key id).1.keys.Sublist r.keys := by
  unfold cancel
  cases r.slots.lookup key with
  | none => exact List.Sublist.refl _
  | some state =>
      cases state with
      | ready e => exact List.Sublist.refl _
      | reserved own stamp =>
          dsimp only
          split_ifs
          · exact r.keys_drop key
          · exact List.Sublist.refl _

theorem keys_get (now : Instant) :
    (r.get key now).1.keys.Sublist (refresh r.keys ((r.get key now).2.map fun _ => key)) := by
  unfold get
  cases r.peek key with
  | none => exact List.Sublist.refl _
  | some e =>
      dsimp only
      split_ifs
      · exact r.keys_drop key
      · simp [keys_use]

/-- A call moves the key it uses to the end, and otherwise only takes keys away. -/
theorem keys_respond (call : Store.Call ν) :
    (r.respond call).1.keys.Sublist (refresh r.keys (call.used? (r.respond call).2)) := by
  cases call with
  | put key value stamp now draw =>
      have hPut := r.keys_put key value stamp now
      simp only [respond]
      cases hStored : (r.put key value stamp now).2 <;> simpa [hStored, Store.Call.used?] using hPut
  | reserve key stamp draw =>
      have hReserve := r.keys_reserve key stamp
      simp only [respond]
      cases hGranted : (r.reserve key stamp).2 <;> simpa [hGranted, Store.Call.used?] using hReserve
  | publish key id value now => exact (r.keys_publish key id value now).symm ▸ List.Sublist.refl _
  | cancel key id => exact r.keys_cancel key id
  | get key now =>
      have hGet := r.keys_get key now
      simp only [respond]
      cases hValue : (r.get key now).2 <;> simpa [hValue, Store.Call.used?] using hGet
  | invalidate key => exact r.keys_drop key
  | invalidateAll => exact List.nil_sublist _
  | clear => exact List.nil_sublist _
  | track tracker => exact List.Sublist.refl _

end Recency

/-- A selection that keeps the order is a filter. -/
theorem filter_eq_of_sublist {keys uses : List Data} (h : keys.Sublist uses) (hNodup : uses.Nodup)
    {has : Data → Bool} (hHas : ∀ key, has key = true ↔ key ∈ keys) : uses.filter has = keys := by
  refine (List.Sublist.eq_of_length_le ?_ ?_).symm
  · have hKeys : keys.filter has = keys := List.filter_eq_self.mpr fun key hm => (hHas key).mpr hm
    rw [← hKeys]
    exact h.filter has
  · refine (hNodup.filter has).length_le_of_subset fun key hm => ?_
    exact (hHas key).mp (List.mem_filter.mp hm).2

namespace Store

variable {ν : Type}

theorem keys_recency (s : Store ν) : s.recency.keys = s.slots.byUse.map Prod.fst :=
  rfl

/-- The keys that the calls of a history have used with success, each where it was used last. -/
def lastUses (history : List (Store ν × Call ν)) : List Data :=
  (history.filterMap fun step => step.2.used? (answer step)).dedup

theorem lastUses_concat (history : List (Store ν × Call ν)) (step : Store ν × Call ν) :
    lastUses (history ++ [step]) = refresh (lastUses history) (step.2.used? (answer step)) := by
  rw [lastUses, List.filterMap_append, lastUses, ← dedup_concat]
  cases hUsed : step.2.used? (answer step) <;> simp [hUsed]

section Runs

variable {limits : Limits} (hOrdered : limits.eviction ≠ .random) (tracker : Tracker)
  (calls : List (Call ν))

include hOrdered

theorem keys_sublist_lastUses :
    ((empty limits tracker).run calls).recency.keys.Sublist
      (lastUses ((empty limits tracker).steps calls)) := by
  induction calls using List.reverseRecOn with
  | nil => exact List.nil_sublist _
  | append_singleton calls call ih =>
      have hIndexed := indexed_run (s := empty limits tracker) Slots.indexed_empty calls
      have hPolicy : ((empty limits tracker).run calls).limits.eviction ≠ .random := by
        rwa [limits_run]
      have hKeys := Recency.keys_respond ((empty limits tracker).run calls).recency call
      rw [respond_recency hIndexed hPolicy call] at hKeys
      rw [steps, History.steps_concat, lastUses_concat, run, History.run_concat]
      exact hKeys.trans (refresh_sublist ih _)

theorem keys_eq_filter :
    (lastUses ((empty limits tracker).steps calls)).filter
        ((empty limits tracker).run calls).slots.contains =
      ((empty limits tracker).run calls).recency.keys := by
  have hIndexed := indexed_run (s := empty limits tracker) Slots.indexed_empty calls
  refine filter_eq_of_sublist (keys_sublist_lastUses hOrdered tracker calls) (List.nodup_dedup _) ?_
  exact fun key => hIndexed.contains_iff_mem

end Runs

/-- A store that evicts the longest unused slot or none is a list of slots in the order of their last
use. The list answers every call like the store and stays equal to it, the index of the store stays
in step with its slots, and the slot that has to go next is that of the key whose last put,
reservation or hit is the earliest among the keys that have a slot. -/
theorem refines_recency {limits : Limits} (hOrdered : limits.eviction ≠ .random) (tracker : Tracker)
    (calls : List (Call ν)) :
    let start : Store ν := empty limits tracker
    (Recency.empty limits tracker).answers calls = (start.steps calls).map answer ∧
    (Recency.empty limits tracker).run calls = (start.run calls).recency ∧
    (start.run calls).slots.Indexed ∧
    (∀ key, ((Recency.empty limits tracker).run calls).peek key = (start.run calls).peek key) ∧
    (∀ draw, (start.run calls).slots.victim? .lru draw =
      (lastUses (start.steps calls)).find? (start.run calls).slots.contains) := by
  intro start
  have hEmpty : start.recency = Recency.empty limits tracker := by
    simp only [start, recency, empty, Slots.byUse_empty]
    rfl
  have hIndexed := indexed_run (s := start) Slots.indexed_empty calls
  obtain ⟨hAnswers, hRun⟩ := run_recency (s := start) Slots.indexed_empty hOrdered calls
  rw [hEmpty] at hAnswers hRun
  refine ⟨hAnswers, hRun, hIndexed, fun key => ?_, fun draw => ?_⟩
  · rw [hRun, peek_recency hIndexed]
  · rw [hIndexed.victim?_eq, ← List.head?_filter, keys_eq_filter hOrdered tracker calls]
    rfl

/-- A slot that is only reserved is used as well, and goes before an entry that was read after it. -/
theorem refines_recency_reservation_evicted :
    let a : Data := ⟨[1]⟩
    let b : Data := ⟨[2]⟩
    let c : Data := ⟨[3]⟩
    let limits : Limits := ⟨2, .lru, none, none⟩
    let calls : List (Call Nat) :=
      [.put a 5 ⟨0, 0, 0⟩ 0 0, .reserve b ⟨0, 0, 0⟩ 0, .get a 1, .put c 7 ⟨0, 0, 0⟩ 2 0]
    let s := (empty limits (.empty 0)).run calls
    limits.eviction ≠ .random ∧ s.slots.byUse.map Prod.fst = [a, c] := by
  intro a b c limits calls s
  have hOrdered : limits.eviction ≠ .random := by decide
  obtain ⟨-, hRun, -, -, -⟩ := refines_recency hOrdered (.empty 0) calls
  have hListed : ((Recency.empty limits (.empty 0)).run calls).keys = [a, c] := by decide
  refine ⟨hOrdered, ?_⟩
  rw [← keys_recency, ← hListed, hRun]

end Store

end NearCache
