import Mathlib.Data.String.Basic
import Mathlib.Tactic.ByContra
import Mathlib.Tactic.SplitIfs
import NearCache.Identity
import NearCache.Text.Split

/-!
The bytes of a text in UTF-8. They are as many as the characters take, the text can be read back from
them, and texts stand in the order of their bytes.
-/

namespace NearCache

theorem utf8Length_append (xs ys : List Char) :
    utf8Length (xs ++ ys) = utf8Length xs + utf8Length ys := by
  induction xs with
  | nil => simp [utf8Length]
  | cons c xs ih =>
      simp only [utf8Length, List.cons_append, List.foldr_cons] at ih ⊢
      omega

theorem utf8Length_eq_zero {xs : List Char} (h : utf8Length xs = 0) : xs = [] := by
  cases xs with
  | nil => rfl
  | cons c xs =>
      have hPos : 0 < c.utf8Size := c.utf8Size_pos
      simp only [utf8Length, List.foldr_cons] at h
      omega

/-- The length is that of the text in memory. -/
theorem utf8Length_toList (s : String) : utf8Length s.toList = s.utf8ByteSize := by
  have hList (cs : List Char) : utf8Length cs = (String.ofList cs).utf8ByteSize := by
    induction cs with
    | nil => rfl
    | cons c cs ih =>
        simp only [utf8Length, List.foldr_cons] at ih ⊢
        rw [ih]
        simp [String.ofList_cons]
  rw [hList, String.ofList_toList]

/-- A character of a lower code point comes first in UTF-8 too, whatever follows it: a shorter form
begins with a lower byte, and forms of one length are compared digit by digit in base 64. -/
theorem utf8EncodeChar_append_lt {c d : Char} (h : c < d) (xs ys : List UInt8) :
    String.utf8EncodeChar c ++ xs < String.utf8EncodeChar d ++ ys := by
  have hLess : c.val.toNat < d.val.toNat := h
  have hd : d.val.toNat < 1114112 := by
    have hValid := d.valid
    unfold UInt32.isValidChar Nat.isValidChar at hValid
    omega
  unfold String.utf8EncodeChar
  generalize c.val.toNat = m at *
  generalize d.val.toNat = n at *
  have hLow (k : Nat) : (k % 64 + 128) % 256 = k % 64 + 128 := by omega
  have hLead (k : Nat) (hk : k < 1114112) : (k / 262144 % 8 + 240) % 256 = k / 262144 + 240 := by
    omega
  have hDigit (k l : Nat) : k < l → k / 64 < l / 64 ∨ k / 64 = l / 64 ∧ k % 64 < l % 64 := by omega
  have hFourth := hDigit m n hLess
  have hThird := hDigit (m / 64) (n / 64)
  have hSecond := hDigit (m / 4096) (n / 4096)
  simp only [Nat.div_div_eq_div_mul, Nat.reduceMul] at hThird hSecond
  dsimp only
  split_ifs <;>
    simp only [List.cons_append, List.nil_append, List.cons_lt_cons_iff, UInt8.lt_iff_toNat_lt,
      ← UInt8.toNat_inj, UInt8.toNat_ofNat', Nat.reducePow, hLow, hLead n hd,
      hLead m (lt_trans hLess hd)]
  all_goals omega

namespace Data

/-- A byte array is read out from its start. -/
theorem toList_loop (bytes : ByteArray) (i : Nat) (read : List UInt8) :
    ByteArray.toList.loop bytes i read = read.reverse ++ bytes.data.toList.drop i := by
  induction i, read using ByteArray.toList.loop.induct bytes with
  | case1 i read hLess ih =>
      have hIn : i < bytes.data.toList.length := by simpa using hLess
      have hByte : bytes.get! i = bytes.data.toList[i] := by
        rw [Array.getElem_toList]
        exact getElem!_pos bytes.data i hIn
      rw [ByteArray.toList.loop, if_pos hLess, ih, List.drop_eq_getElem_cons hIn, hByte]
      simp
  | case2 i read hEnd =>
      have hOut : bytes.data.toList.length ≤ i := by simpa using hEnd
      rw [ByteArray.toList.loop, if_neg hEnd, List.drop_eq_nil_of_le hOut, List.append_nil]

theorem bytes_ofString_eq (s : String) : (ofString s).bytes = s.toByteArray.data.toList := by
  show s.toByteArray.toList = _
  rw [ByteArray.toList, toList_loop]
  simp

theorem bytes_ofString (s : String) :
    (ofString s).bytes = s.toList.flatMap String.utf8EncodeChar := by
  have hBytes : s.toByteArray = s.toList.utf8Encode := by
    rw [← String.toByteArray_ofList, String.ofList_toList]
  rw [bytes_ofString_eq, hBytes, List.utf8Encode, List.toList_data_toByteArray]

/-- The bytes of a text hold that text. -/
theorem toString?_ofString (s : String) : (ofString s).toString? = some s := by
  have hArray : (⟨(ofString s).bytes.toArray⟩ : ByteArray) = s.toByteArray := by
    rw [bytes_ofString_eq, Array.toArray_toList]
  rw [toString?, hArray]
  simp [String.fromUTF8?, String.fromUTF8, s.isValidUTF8]

theorem bytes_lt_of_lt {s t : String} (h : s < t) : (ofString s).bytes < (ofString t).bytes := by
  rw [String.lt_iff] at h
  rw [bytes_ofString, bytes_ofString]
  generalize s.toList = cs at h
  generalize t.toList = ds at h
  induction cs generalizing ds with
  | nil =>
      cases ds with
      | nil => exact absurd h (List.not_lt_nil _)
      | cons d ds =>
          rw [List.flatMap_nil, List.flatMap_cons]
          cases hBytes : String.utf8EncodeChar d with
          | nil => exact absurd hBytes (by simp)
          | cons b bs => exact List.nil_lt_cons _ _
  | cons c cs ih =>
      cases ds with
      | nil => exact absurd h (List.not_lt_nil _)
      | cons d ds =>
          rw [List.flatMap_cons, List.flatMap_cons]
          rcases List.cons_lt_cons_iff.mp h with hLess | ⟨rfl, hLess⟩
          · exact utf8EncodeChar_append_lt hLess _ _
          · exact List.append_left_lt (ih ds hLess)

/-- Texts stand in the order of their bytes. -/
theorem bytes_le_iff {s t : String} : (ofString s).bytes ≤ (ofString t).bytes ↔ s ≤ t := by
  constructor
  · intro h
    by_contra hLess
    exact h (bytes_lt_of_lt (String.not_le.mp hLess))
  · intro h
    rcases lt_or_eq_of_le h with hLess | rfl
    · exact List.le_of_lt (bytes_lt_of_lt hLess)
    · exact List.le_refl _

end Data

end NearCache
