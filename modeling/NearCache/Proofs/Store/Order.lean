import Mathlib.Data.List.Sort
import NearCache.Proofs.Store.Slots

/-!
The slots of a store in the order of their last use. The map of slots and the index of ticks are kept
in step by every operation, and read together they are one list, the longest unused slot first.
-/

namespace NearCache

section Entries

variable {α : Type} (m : Std.ExtTreeMap Nat α)

/-- The library has no law for the least entry of an extensional map, so the tree is opened once. -/
theorem minEntry?_eq_head? : m.minEntry? = m.toList.head? := by
  obtain ⟨⟨q⟩⟩ := m
  induction q using Quotient.inductionOn with
  | h t =>
      have hFirst : Std.DTreeMap.Internal.Impl.Const.minEntry? t.inner =
          (Std.DTreeMap.Internal.Impl.Const.toList t.inner).head? := by
        rw [Std.DTreeMap.Internal.Impl.Const.minEntry?_eq_minEntry?,
          Std.DTreeMap.Internal.Impl.minEntry?_eq_minEntry? t.wf.ordered,
          Std.Internal.List.minEntry?_eq_head? t.wf.ordered,
          Std.DTreeMap.Internal.Impl.Const.toList_eq_toListModel_map, List.head?_map]
      exact hFirst

theorem toList_ascending : m.toList.Pairwise fun a b => a.1 < b.1 :=
  m.ordered_keys_toList.imp Nat.compare_eq_lt.mp

/-- Two ascending lists with the same entries are the same. -/
theorem eq_of_ascending {l l' : List (Nat × α)} (h : l.Pairwise fun a b => a.1 < b.1)
    (h' : l'.Pairwise fun a b => a.1 < b.1) (hm : ∀ a, a ∈ l ↔ a ∈ l') : l = l' := by
  have hIrrefl : Std.Irrefl fun a b : Nat × α => a.1 < b.1 := ⟨fun a => Nat.lt_irrefl a.1⟩
  have hAntisymm : Std.Antisymm fun a b : Nat × α => a.1 < b.1 :=
    ⟨fun a b hab hba => absurd hab (Nat.lt_asymm hba)⟩
  exact h.eq_of_mem_iff h' hm

/-- An entry beyond all others comes last. -/
theorem toList_insert_last (k : Nat) (a : α) (hLast : ∀ j b, m[j]? = some b → j < k) :
    (m.insert k a).toList = m.toList ++ [(k, a)] := by
  have hAscending : (m.toList ++ [(k, a)]).Pairwise fun a b => a.1 < b.1 := by
    refine List.pairwise_append.mpr ⟨toList_ascending m, List.pairwise_singleton _ _, ?_⟩
    intro entry hm last hLater
    rw [List.mem_singleton.mp hLater]
    exact hLast entry.1 entry.2 (Std.ExtTreeMap.mem_toList_iff_getElem?_eq_some.mp hm)
  refine eq_of_ascending (toList_ascending _) hAscending fun entry => ?_
  obtain ⟨j, b⟩ := entry
  rw [List.mem_append, List.mem_singleton, Std.ExtTreeMap.mem_toList_iff_getElem?_eq_some,
    Std.ExtTreeMap.mem_toList_iff_getElem?_eq_some, Std.ExtTreeMap.getElem?_insert]
  by_cases hSame : k = j
  · subst hSame
    have hNone : m[k]? ≠ some b := fun h => Nat.lt_irrefl k (hLast k b h)
    simp [hNone, eq_comm]
  · simp [hSame, Ne.symm hSame]

end Entries

namespace Slots

variable {ν : Type} {s : Slots ν} {key k : Data}

/-- The map of slots and the index of ticks are in step, and the next tick is later than all. -/
structure Indexed (s : Slots ν) : Prop where
  ticked : ∀ (tick : Nat) (key : Data),
    s.byTick[tick]? = some key ↔ ∃ slot, s.byKey[key]? = some slot ∧ slot.tick = tick
  recent : ∀ (key : Data) (slot : Slot ν), s.byKey[key]? = some slot → slot.tick < s.nextTick

/-- The keys with what their slots hold, the longest unused first. -/
def byUse (s : Slots ν) : List (Data × SlotState ν) :=
  s.byTick.toList.filterMap fun entry => (s.state? entry.2).map (entry.2, ·)

section Index

theorem indexed_empty : (empty : Slots ν).Indexed where
  ticked tick key := by simp [empty]
  recent key slot h := by simp [empty] at h

theorem indexed_clear : s.clear.Indexed where
  ticked tick key := by simp [clear]
  recent key slot h := by simp [clear] at h

theorem Indexed.tick_lt (h : s.Indexed) {tick : Nat} (hTick : s.byTick[tick]? = some key) :
    tick < s.nextTick := by
  obtain ⟨slot, hSlot, rfl⟩ := (h.ticked tick key).mp hTick
  exact h.recent key slot hSlot

/-- Without the tick of one key, the index is about the other keys. -/
theorem Indexed.getElem?_withoutTick (h : s.Indexed) {tick : Nat} :
    (s.withoutTick key)[tick]? = some k ↔ s.byTick[tick]? = some k ∧ k ≠ key := by
  unfold withoutTick
  cases hSlot : s.byKey[key]? with
  | none =>
      refine ⟨fun hTick => ⟨hTick, ?_⟩, And.left⟩
      rintro rfl
      obtain ⟨slot, hSome, -⟩ := (h.ticked tick k).mp hTick
      cases hSlot.symm.trans hSome
  | some slot =>
      have hOwn : s.byTick[slot.tick]? = some key := (h.ticked slot.tick key).mpr ⟨slot, hSlot, rfl⟩
      simp only [Std.ExtTreeMap.getElem?_erase, Std.LawfulEqCmp.compare_eq_iff_eq]
      by_cases hTick : slot.tick = tick
      · subst hTick
        simp only [if_true, reduceCtorEq, false_iff, not_and, not_not]
        exact fun hOther => Option.some.inj (hOther.symm.trans hOwn)
      · rw [if_neg hTick]
        refine ⟨fun hOther => ⟨hOther, ?_⟩, And.left⟩
        rintro rfl
        obtain ⟨slot', hSlot', rfl⟩ := (h.ticked tick k).mp hOther
        cases hSlot.symm.trans hSlot'
        exact hTick rfl

theorem Indexed.remove (h : s.Indexed) (key : Data) : (s.remove key).Indexed where
  ticked tick k := by
    simp only [Slots.remove, h.getElem?_withoutTick, Std.ExtTreeMap.getElem?_erase,
      Std.LawfulEqCmp.compare_eq_iff_eq, h.ticked]
    by_cases hKey : key = k
    · simp [hKey]
    · simp [hKey, Ne.symm hKey]
  recent k slot hSlot := by
    simp only [Slots.remove, Std.ExtTreeMap.getElem?_erase] at hSlot
    split at hSlot
    · cases hSlot
    · exact h.recent k slot hSlot

theorem Indexed.insert (h : s.Indexed) (key : Data) (state : SlotState ν) :
    (s.insert key state).Indexed where
  ticked tick k := by
    simp only [Slots.insert, Std.ExtTreeMap.getElem?_insert, Std.LawfulEqCmp.compare_eq_iff_eq]
    by_cases hTick : s.nextTick = tick
    · subst hTick
      by_cases hKey : key = k
      · simp [hKey]
      · have hOld : ¬∃ slot, s.byKey[k]? = some slot ∧ slot.tick = s.nextTick := by
          rintro ⟨slot, hSlot, hTick⟩
          exact Nat.lt_irrefl _ (hTick ▸ h.recent k slot hSlot)
        simp [hKey, hOld]
    · rw [if_neg hTick, h.getElem?_withoutTick, h.ticked]
      by_cases hKey : key = k
      · simp [hKey, hTick]
      · simp [hKey, Ne.symm hKey]
  recent k slot hSlot := by
    simp only [Slots.insert, Std.ExtTreeMap.getElem?_insert] at hSlot ⊢
    split at hSlot
    · cases hSlot
      exact Nat.lt_succ_self _
    · exact Nat.lt_succ_of_lt (h.recent k slot hSlot)

theorem Indexed.reserve (h : s.Indexed) (key : Data) (stamp : Position) :
    (s.reserve key stamp).Indexed :=
  have hInserted := h.insert key (.reserved s.nextReservation stamp)
  ⟨hInserted.ticked, hInserted.recent⟩

theorem Indexed.replace (h : s.Indexed) (key : Data) (state : SlotState ν) :
    (s.replace key state).Indexed where
  ticked tick k := by
    simp only [Slots.replace, Std.ExtTreeMap.getElem?_modify, Std.LawfulEqCmp.compare_eq_iff_eq,
      h.ticked]
    by_cases hKey : key = k
    · subst hKey
      simp
    · simp [hKey]
  recent k slot hSlot := by
    simp only [Slots.replace, Std.ExtTreeMap.getElem?_modify,
      Std.LawfulEqCmp.compare_eq_iff_eq] at hSlot ⊢
    by_cases hKey : key = k
    · subst hKey
      simp only [if_true, Option.map_eq_some_iff] at hSlot
      obtain ⟨old, hOld, rfl⟩ := hSlot
      exact h.recent key old hOld
    · rw [if_neg hKey] at hSlot
      exact h.recent k slot hSlot

end Index

section Lists

theorem Indexed.toList_withoutTick (h : s.Indexed) :
    (s.withoutTick key).toList = s.byTick.toList.filter (·.2 ≠ key) := by
  refine eq_of_ascending (toList_ascending _) ((toList_ascending _).filter _) fun entry => ?_
  rw [List.mem_filter, Std.ExtTreeMap.mem_toList_iff_getElem?_eq_some,
    Std.ExtTreeMap.mem_toList_iff_getElem?_eq_some, h.getElem?_withoutTick, decide_eq_true_iff]

/-- Slots of other keys stand where they stood in a list from which one key was taken. -/
theorem filterMap_without (l : List (Nat × Data)) {f g : Data → Option (SlotState ν)}
    (hOther : ∀ k, k ≠ key → g k = f k) :
    (l.filter (·.2 ≠ key)).filterMap (fun entry => (g entry.2).map (entry.2, ·)) =
      (l.filterMap fun entry => (f entry.2).map (entry.2, ·)).filter (·.1 ≠ key) := by
  rw [List.filterMap_filter, List.filter_filterMap]
  congr 1
  funext entry
  by_cases hKey : entry.2 = key
  · cases f entry.2 <;> simp [hKey, Option.filter]
  · rw [hOther _ hKey]
    cases f entry.2 <;> simp [hKey, Option.filter]

@[simp]
theorem byUse_empty : (empty : Slots ν).byUse = [] := by
  simp [byUse, empty]

@[simp]
theorem byUse_clear : s.clear.byUse = [] := by
  simp [byUse, clear]

theorem Indexed.byUse_remove (h : s.Indexed) (key : Data) :
    (s.remove key).byUse = s.byUse.filter (·.1 ≠ key) := by
  have hOther : ∀ k, k ≠ key → (s.remove key).state? k = s.state? k :=
    fun k hk => (s.state?_remove key k).trans (if_neg hk.symm)
  exact (congrArg _ h.toList_withoutTick).trans (filterMap_without s.byTick.toList hOther)

/-- A slot that is used moves to the end, or is appended there. -/
theorem Indexed.byUse_insert (h : s.Indexed) (key : Data) (state : SlotState ν) :
    (s.insert key state).byUse = s.byUse.filter (·.1 ≠ key) ++ [(key, state)] := by
  have hOther : ∀ k, k ≠ key → (s.insert key state).state? k = s.state? k :=
    fun k hk => (s.state?_insert key k state).trans (if_neg hk.symm)
  have hLast : ∀ tick k, (s.withoutTick key)[tick]? = some k → tick < s.nextTick :=
    fun tick k hTick => h.tick_lt (h.getElem?_withoutTick.mp hTick).1
  have hTicks : (s.insert key state).byTick.toList =
      s.byTick.toList.filter (·.2 ≠ key) ++ [(s.nextTick, key)] := by
    rw [← h.toList_withoutTick]
    exact toList_insert_last _ s.nextTick key hLast
  have hOwn : (s.insert key state).state? key = some state :=
    (s.state?_insert key key state).trans (if_pos rfl)
  rw [byUse, hTicks, List.filterMap_append, filterMap_without s.byTick.toList hOther]
  simp [hOwn, byUse]

theorem Indexed.byUse_reserve (h : s.Indexed) (key : Data) (stamp : Position) :
    (s.reserve key stamp).byUse =
      s.byUse.filter (·.1 ≠ key) ++ [(key, .reserved s.nextReservation stamp)] :=
  h.byUse_insert key _

/-- A slot that is filled anew without being used keeps its place. -/
theorem byUse_replace (s : Slots ν) (key : Data) (state : SlotState ν) :
    (s.replace key state).byUse =
      s.byUse.map fun p => if p.1 = key then (key, state) else p := by
  rw [byUse, byUse, List.map_filterMap]
  congr 1
  funext entry
  rw [state?_replace]
  by_cases hKey : key = entry.2
  · cases s.state? entry.2 <;> simp [← hKey]
  · cases s.state? entry.2 <;> simp [hKey, Ne.symm hKey]

/-- Each key with a slot stands in the list once, with what its slot holds. -/
theorem Indexed.mem_byUse_iff (h : s.Indexed) {state : SlotState ν} :
    (key, state) ∈ s.byUse ↔ s.state? key = some state := by
  simp only [byUse, List.mem_filterMap, Option.map_eq_some_iff, Prod.mk.injEq]
  constructor
  · rintro ⟨entry, -, state', hState, rfl, rfl⟩
    exact hState
  · intro hState
    obtain ⟨slot, hSlot, -⟩ := Option.map_eq_some_iff.mp hState
    have hTick := (h.ticked slot.tick key).mpr ⟨slot, hSlot, rfl⟩
    exact ⟨(slot.tick, key), Std.ExtTreeMap.mem_toList_iff_getElem?_eq_some.mpr hTick,
      state, hState, rfl, rfl⟩

/-- Every tick of the index belongs to a slot. -/
theorem Indexed.keys_byUse (h : s.Indexed) :
    s.byUse.map Prod.fst = s.byTick.toList.map Prod.snd := by
  rw [byUse, List.map_filterMap, ← List.filterMap_eq_map]
  refine List.filterMap_congr fun entry hm => ?_
  obtain ⟨slot, hSlot, -⟩ :=
    (h.ticked entry.1 entry.2).mp (Std.ExtTreeMap.mem_toList_iff_getElem?_eq_some.mp hm)
  simp [state?, hSlot]

theorem Indexed.nodup_keys (h : s.Indexed) : (s.byUse.map Prod.fst).Nodup := by
  rw [h.keys_byUse, List.Nodup, List.pairwise_map]
  refine (toList_ascending s.byTick).imp_of_mem fun {a b} ha hb hLess hSame => ?_
  obtain ⟨slot, hSlot, hTick⟩ :=
    (h.ticked a.1 a.2).mp (Std.ExtTreeMap.mem_toList_iff_getElem?_eq_some.mp ha)
  obtain ⟨slot', hSlot', hTick'⟩ :=
    (h.ticked b.1 b.2).mp (Std.ExtTreeMap.mem_toList_iff_getElem?_eq_some.mp hb)
  rw [hSame, hSlot'] at hSlot
  cases hSlot
  exact Nat.ne_of_lt hLess (hTick.symm.trans hTick')

/-- Removing the first key leaves the rest of the list. -/
theorem Indexed.byUse_remove_first (h : s.Indexed) {first : Data × SlotState ν}
    {rest : List (Data × SlotState ν)} (hSlots : s.byUse = first :: rest) :
    (s.remove first.1).byUse = rest := by
  have hNodup := h.nodup_keys
  rw [hSlots, List.map_cons, List.nodup_cons] at hNodup
  have hOther : ∀ slot ∈ rest, decide (slot.1 ≠ first.1) = true := fun slot hm =>
    decide_eq_true fun hSame => hNodup.1 (List.mem_map.mpr ⟨slot, hm, hSame⟩)
  rw [h.byUse_remove, hSlots, List.filter_cons_of_neg (by simp), List.filter_eq_self.mpr hOther]

theorem Indexed.contains_iff_mem (h : s.Indexed) :
    s.contains key = true ↔ key ∈ s.byUse.map Prod.fst := by
  rw [contains_eq_isSome, Option.isSome_iff_exists, List.mem_map]
  constructor
  · rintro ⟨state, hState⟩
    exact ⟨(key, state), h.mem_byUse_iff.mpr hState, rfl⟩
  · rintro ⟨⟨k, state⟩, hm, rfl⟩
    exact ⟨state, h.mem_byUse_iff.mp hm⟩

theorem Indexed.length_byUse (h : s.Indexed) : s.byUse.length = s.size := by
  have hPerm : (s.byUse.map Prod.fst).Perm s.byKey.keys := by
    refine (List.perm_ext_iff_of_nodup h.nodup_keys s.byKey.nodup_keys).mpr fun k => ?_
    rw [← h.contains_iff_mem, Std.ExtTreeMap.mem_keys, Std.ExtTreeMap.mem_iff_contains]
    exact Iff.rfl
  rw [size, ← Std.ExtTreeMap.length_keys, ← hPerm.length_eq, List.length_map]

/-- In a list that names each key once, looking a key up is finding its entry. -/
theorem lookup_eq_some_iff {l : List (Data × SlotState ν)} (hNodup : (l.map Prod.fst).Nodup)
    {state : SlotState ν} : l.lookup key = some state ↔ (key, state) ∈ l := by
  induction l with
  | nil => simp
  | cons first rest ih =>
      obtain ⟨k, other⟩ := first
      rw [List.map_cons, List.nodup_cons] at hNodup
      by_cases hKey : key = k
      · subst hKey
        have hRest : (key, state) ∉ rest := fun hm => hNodup.1 (List.mem_map.mpr ⟨_, hm, rfl⟩)
        simp [hRest, eq_comm]
      · have hLookup : ((k, other) :: rest).lookup key = rest.lookup key := by
          rw [List.lookup_cons, beq_eq_false_iff_ne.mpr hKey]
        rw [hLookup, ih hNodup.2]
        simp [hKey]

theorem Indexed.lookup_byUse (h : s.Indexed) (key : Data) : s.byUse.lookup key = s.state? key :=
  Option.ext fun _ => (lookup_eq_some_iff h.nodup_keys).trans h.mem_byUse_iff

/-- The slot to evict is that of the first key. -/
theorem Indexed.victim?_eq (h : s.Indexed) (draw : Nat) :
    s.victim? .lru draw = (s.byUse.map Prod.fst).head? := by
  rw [h.keys_byUse, List.head?_map, ← minEntry?_eq_head?]
  rfl

end Lists

end Slots

end NearCache
