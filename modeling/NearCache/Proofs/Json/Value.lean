import Mathlib.Algebra.Group.Int.Defs
import Mathlib.Data.List.Induction
import NearCache.Json.Service
import NearCache.Proofs.Json.Scan
import NearCache.Proofs.Text.Bytes

/-!
What a value is written as has that value. So bytes that encode a value without doubles decode to it, as
long as the value does not nest too deep to be read at all.
-/

namespace NearCache

section Strings

theorem partsChars?_cons (c : Char) (rest : List StringPart) :
    partsChars? (.ofChar c :: rest) = (partsChars? rest).map (c :: ·) := by
  unfold StringPart.ofChar
  split_ifs with hControl
  · have hHigh : isHighSurrogate c.toNat = false := by
      simp [isHighSurrogate]
      omega
    have hLow : isLowSurrogate c.toNat = false := by
      simp [isLowSurrogate]
      omega
    cases rest with
    | nil => simp [partsChars?, hHigh, hLow]
    | cons part rest => cases part <;> simp [partsChars?, hHigh, hLow]
  · rw [partsChars?]

/-- A text is read as it is written. -/
theorem partsText?_parts (s : String) : partsText? (Draft.parts s) = some s := by
  have hChars (cs : List Char) : partsChars? (cs.map .ofChar) = some cs := by
    induction cs with
    | nil => rfl
    | cons c cs ih => rw [List.map_cons, partsChars?_cons, ih, Option.map_some]
  rw [partsText?, Draft.parts, hChars, Option.map_some, String.ofList_toList]

end Strings

/-- An integer that 64 bits hold is read as it is written. -/
theorem NumberLiteral.integer?_ofInt {n : Int} (hMin : -2 ^ 63 ≤ n) (hMax : n < 2 ^ 64) :
    (ofInt n).integer? = some n := by
  have hDigits : ofDigits (ofInt n).whole = n.natAbs := by
    rw [ofInt, ofDigits_map, (writes_natText n.natAbs).value]
  have hWhole : (ofInt n).isWhole = true := rfl
  have hSign : (ofInt n).negative = decide (n < 0) := rfl
  simp only [integer?, hDigits, hWhole, hSign, UInt64.size]
  by_cases hNegative : n < 0
  · have hValue : -(n.natAbs : Int) = n := by omega
    have hPositive : 0 < n.natAbs := by omega
    have hFits : n.natAbs ≤ 18446744073709551616 / 2 := by omega
    simp only [Bool.not_true, Bool.false_eq_true, hNegative, decide_true, if_false, if_true, hPositive,
      hFits, and_self, hValue]
  · have hValue : (n.natAbs : Int) = n := by omega
    have hFits : n.natAbs < 18446744073709551616 := by omega
    simp only [Bool.not_true, Bool.false_eq_true, hNegative, decide_false, if_false, if_true, hFits, hValue]

namespace Json

theorem insertMember_of_lt {key : String} {members : List (String × Json)}
    (h : ∀ m ∈ members, m.1 < key) (value : Json) :
    insertMember key value members = members ++ [(key, value)] := by
  induction members with
  | nil => rfl
  | cons m members ih =>
      rw [List.forall_mem_cons] at h
      have hOther : ¬key = m.1 := fun hSame => absurd h.1 (hSame ▸ String.lt_irrefl m.1)
      obtain ⟨k, v⟩ := m
      rw [insertMember, if_neg (String.lt_asymm h.1), if_neg hOther, ih h.2]
      rfl

/-- Members in the order of their keys are left in this order. -/
theorem ofMembers_of_pairwise {members : List (String × Json)}
    (h : members.Pairwise fun m m' => m.1 < m'.1) : ofMembers members = .object members := by
  rw [ofMembers, object.injEq]
  induction members using List.reverseRecOn with
  | nil => rfl
  | append_singleton members m ih =>
      rw [List.pairwise_append] at h
      obtain ⟨hBefore, -, hLast⟩ := h
      rw [List.foldl_concat, ih hBefore]
      exact insertMember_of_lt (fun m' hm => hLast m' hm m (List.mem_singleton.mpr rfl)) m.2

/-- The values that stand for data: integers that 64 bits hold and no doubles, and members in the order
of their keys. -/
inductive Canonical : Json → Prop
  | null : Canonical .null
  | bool (b : Bool) : Canonical (.bool b)
  | int (n : Int) (hMin : -2 ^ 63 ≤ n) (hMax : n < 2 ^ 64) : Canonical (.int n)
  | string (s : String) : Canonical (.string s)
  | array (items : List Json) (h : ∀ item ∈ items, Canonical item) : Canonical (.array items)
  | object (members : List (String × Json)) (hOrder : members.Pairwise fun m m' => m.1 < m'.1)
      (h : ∀ m ∈ members, Canonical m.2) : Canonical (.object members)

end Json

namespace Draft

theorem itemValues?_ofItems {items : List Json} (h : ∀ item ∈ items, (ofJson item).value? = some item) :
    itemValues? (ofItems items) = some items := by
  induction items with
  | nil => rfl
  | cons item items ih =>
      rw [List.forall_mem_cons] at h
      rw [ofItems, itemValues?, h.1, ih h.2]
      rfl

theorem memberValues?_ofMembers {members : List (String × Json)}
    (h : ∀ m ∈ members, (ofJson m.2).value? = some m.2) :
    memberValues? (ofMembers members) = some members := by
  induction members with
  | nil => rfl
  | cons m members ih =>
      rw [List.forall_mem_cons] at h
      obtain ⟨key, value⟩ := m
      rw [ofMembers, memberValues?, partsText?_parts, h.1, ih h.2]
      rfl

/-- A value that stands for data has itself as the value of what it is written as. -/
theorem value?_ofJson {j : Json} (h : j.Canonical) : (ofJson j).value? = some j := by
  induction h with
  | null => rfl
  | bool b => rfl
  | int n hMin hMax =>
      rw [ofJson, value?, NumberLiteral.value?, NumberLiteral.integer?_ofInt hMin hMax]
  | string s => rw [ofJson, value?, partsText?_parts, Option.map_some]
  | array items h ih => rw [ofJson, value?, itemValues?_ofItems ih, Option.map_some]
  | object members hOrder h ih =>
      rw [ofJson, value?, memberValues?_ofMembers ih, Option.map_some, Json.ofMembers_of_pairwise hOrder]

end Draft

/-- The bytes that encode a value decode to it. -/
theorem Json.decode_encode {j : Json} (h : j.Canonical) (hNests : j.Nests maxDepth) :
    decode (encode j) = .ok j := by
  rw [decode, encode, Data.toString?_ofString, Option.bind_some, ofText?, text, String.toList_ofList,
    Draft.ofChars?_chars hNests, Option.bind_some, Draft.value?_ofJson h]

end NearCache
