import Mathlib.Tactic.SplitIfs
import NearCache.Store.Slots

/-!
What the operations on slots do to the slot of each key.
-/

namespace NearCache

namespace Slots

variable {ν : Type} (s : Slots ν) (key k : Data)

@[simp]
theorem state?_empty : (empty : Slots ν).state? k = none := by
  simp [empty, state?]

@[simp]
theorem state?_clear : s.clear.state? k = none := by
  simp [clear, state?]

@[simp]
theorem size_empty : (empty : Slots ν).size = 0 :=
  Std.ExtTreeMap.size_empty

@[simp]
theorem size_clear : s.clear.size = 0 :=
  Std.ExtTreeMap.size_empty

theorem state?_insert (state : SlotState ν) :
    (s.insert key state).state? k = if key = k then some state else s.state? k := by
  simp only [insert, state?, Std.ExtTreeMap.getElem?_insert, Std.LawfulEqCmp.compare_eq_iff_eq]
  split_ifs <;> rfl

theorem state?_remove :
    (s.remove key).state? k = if key = k then none else s.state? k := by
  simp only [remove, state?, Std.ExtTreeMap.getElem?_erase, Std.LawfulEqCmp.compare_eq_iff_eq]
  split_ifs <;> rfl

theorem state?_reserve (stamp : Position) :
    (s.reserve key stamp).state? k =
      if key = k then some (.reserved s.nextReservation stamp) else s.state? k :=
  s.state?_insert key k _

theorem state?_replace (state : SlotState ν) :
    (s.replace key state).state? k =
      if key = k then (s.state? k).map fun _ => state else s.state? k := by
  simp only [replace, state?, Std.ExtTreeMap.getElem?_modify, Std.LawfulEqCmp.compare_eq_iff_eq]
  split_ifs with hKey
  · subst hKey
    cases s.byKey[key]? <;> rfl
  · rfl

theorem contains_eq_isSome : s.contains key = (s.state? key).isSome := by
  rw [contains, state?, Option.isSome_map, Std.ExtTreeMap.contains_eq_isSome_getElem?]

theorem contains_eq_false_iff : s.contains key = false ↔ s.state? key = none := by
  rw [contains_eq_isSome, Option.isSome_eq_false_iff, Option.isNone_iff_eq_none]

variable {s} in
theorem contains_remove_of_absent {key k : Data} (h : s.contains k = false) :
    (s.remove key).contains k = false := by
  rw [contains_eq_false_iff] at h ⊢
  rw [state?_remove, h, ite_self]

theorem size_insert (state : SlotState ν) :
    (s.insert key state).size = if s.contains key then s.size else s.size + 1 :=
  Std.ExtTreeMap.size_insert

theorem size_reserve (stamp : Position) :
    (s.reserve key stamp).size = if s.contains key then s.size else s.size + 1 :=
  s.size_insert key _

theorem size_replace (state : SlotState ν) : (s.replace key state).size = s.size :=
  Std.ExtTreeMap.size_modify

theorem size_pos (h : s.contains key = true) : 0 < s.size := by
  rw [size, ← Std.ExtTreeMap.length_keys]
  exact List.length_pos_of_mem (Std.ExtTreeMap.mem_keys.mpr h)

theorem size_remove (h : s.contains key = true) : (s.remove key).size + 1 = s.size := by
  have hLess : (s.remove key).size = s.size - 1 := by
    rw [size, remove, Std.ExtTreeMap.size_erase]
    exact if_pos h
  rw [hLess]
  exact Nat.sub_add_cancel (s.size_pos key h)

/-- Where there is no slot, there is nothing to remove. -/
theorem remove_of_absent (h : s.contains key = false) : s.remove key = s := by
  have hNone : s.byKey[key]? = none := by
    rw [contains_eq_false_iff, state?, Option.map_eq_none_iff] at h
    exact h
  have hSame : s.byKey.erase key = s.byKey := by
    refine Std.ExtTreeMap.ext_getElem? fun k => ?_
    simp only [Std.ExtTreeMap.getElem?_erase, Std.LawfulEqCmp.compare_eq_iff_eq]
    split_ifs with hKey
    · rw [← hKey, hNone]
    · rfl
  unfold remove withoutTick
  rw [hSame, hNone]

theorem entry?_eq_some_iff {e : Entry ν} :
    s.entry? key = some e ↔ s.state? key = some (.ready e) := by
  unfold entry?
  cases s.state? key with
  | none => simp
  | some state => cases state <;> simp

theorem holdsReservation_iff {id : ReservationId} :
    s.holdsReservation key id = true ↔ ∃ stamp, s.state? key = some (.reserved id stamp) := by
  unfold holdsReservation
  cases s.state? key with
  | none => simp
  | some state => cases state <;> simp

end Slots

end NearCache
