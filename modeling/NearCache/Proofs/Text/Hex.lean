import Mathlib.Algebra.Group.Nat.Defs
import Mathlib.Data.List.Basic
import NearCache.Text.Uuid

/-!
Hexadecimal digits are read as the number that they write, and the text of a source id is read as that
source id.
-/

namespace NearCache

theorem hexValue?_hexDigit (n : Nat) : hexValue? (hexDigit n) = some (n % 16) := by
  have hDigit : ∀ d < 16, hexValue? (Nat.digitChar d) = some d := by decide
  exact hDigit (n % 16) (Nat.mod_lt n (by decide))

theorem length_hexDigits (width n : Nat) : (hexDigits width n).length = width := by
  induction width generalizing n with
  | zero => rfl
  | succ width ih => simp [hexDigits, ih]

/-- The digits of a number are read as the number, without what they leave out. -/
theorem readHex?_hexDigits (width n : Nat) : readHex? (hexDigits width n) = some (n % 16 ^ width) := by
  induction width generalizing n with
  | zero => simp [hexDigits, readHex?, Nat.mod_one]
  | succ width ih =>
      specialize ih (n / 16)
      simp only [readHex?, Option.map_eq_some_iff] at ih ⊢
      obtain ⟨ds, hDigits, hValue⟩ := ih
      refine ⟨ds ++ [n % 16], ?_, ?_⟩
      · rw [hexDigits, List.mapM_append, hDigits]
        simp [hexValue?_hexDigit]
      · rw [List.foldl_append, hValue, Nat.pow_succ', Nat.mod_mul]
        exact Nat.add_comm _ _

/-- Five groups of digits of the right lengths are read as the digits alone are. -/
theorem readUuidGroups?_of_length {a b c d e : List Char} (ha : a.length = 8) (hb : b.length = 4)
    (hc : c.length = 4) (hd : d.length = 4) (he : e.length = 12) :
    readUuidGroups? (a ++ '-' :: b ++ '-' :: c ++ '-' :: d ++ '-' :: e) =
      readUuidDigits? (a ++ b ++ c ++ d ++ e) := by
  simp [readUuidGroups?, List.drop_append, List.take_append, List.drop_eq_nil_of_le,
    List.take_of_length_le, ha, hb, hc, hd, he]

theorem readUuidDigits?_hexDigits (source : SourceId) :
    readUuidDigits? (hexDigits 32 source.toNat) = some source := by
  rw [readUuidDigits?, if_pos (length_hexDigits 32 _), readHex?_hexDigits, Option.map_some]
  have hLess : source.toNat < 16 ^ 32 := source.isLt
  rw [Nat.mod_eq_of_lt hLess, BitVec.ofNat_toNat, BitVec.setWidth_eq]

/-- The text of a source id is read as the source id. -/
theorem readUuid?_uuidText (source : SourceId) : readUuid? (uuidText source) = some source := by
  have hLength := length_hexDigits 32 source.toNat
  have hDigits := readUuidDigits?_hexDigits source
  simp only [readUuid?, uuidText, String.toList_ofList]
  generalize hexDigits 32 source.toNat = digits at hLength hDigits ⊢
  have hWhole : digits.take 8 ++ (digits.drop 8).take 4 ++ (digits.drop 12).take 4 ++
      (digits.drop 16).take 4 ++ digits.drop 20 = digits := by
    rw [← List.take_add, ← List.take_add, ← List.take_add, List.take_append_drop]
  rw [if_neg (by simp [hLength]), unwrapUuid, if_neg (by simp [hLength]), if_neg (by simp [hLength]),
    readUuidGroups?_of_length (by simp [hLength]) (by simp [hLength]) (by simp [hLength])
      (by simp [hLength]) (by simp [hLength]), hWhole, hDigits]

end NearCache
