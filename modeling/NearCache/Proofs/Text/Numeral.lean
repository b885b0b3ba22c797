import Mathlib.Data.List.Basic
import NearCache.Text.Decimal

/-!
Numbers in decimal digits: what is read as a number, and that the text of a number is read as that
number.
-/

namespace NearCache

theorem digitValue?_eq_some_iff {c : Char} {d : Nat} :
    digitValue? c = some d ↔ c.isDigit = true ∧ c.toNat - '0'.toNat = d := by
  have hDigit : c.isDigit = true ↔ '0' ≤ c ∧ c ≤ '9' := by
    simp only [Char.isDigit, Bool.and_eq_true, decide_eq_true_eq]
    rfl
  rw [digitValue?, hDigit]
  by_cases h : '0' ≤ c ∧ c ≤ '9' <;> simp [h]

/-- The characters are one or more ASCII digits, and write the number. -/
structure Writes (digits : List Char) (n : Nat) : Prop where
  nonempty : digits ≠ []
  isDigit : ∀ c ∈ digits, c.isDigit = true
  value : Nat.ofDigitChars 10 digits 0 = n

theorem mapM_digitValue?_eq_some_iff {cs : List Char} {ds : List Nat} :
    cs.mapM digitValue? = some ds ↔
      (∀ c ∈ cs, c.isDigit = true) ∧ cs.map (fun c => c.toNat - '0'.toNat) = ds := by
  induction cs generalizing ds with
  | nil => simp
  | cons c cs ih =>
      rw [List.mapM_cons]
      cases hFirst : digitValue? c with
      | none =>
          have hNot : ¬c.isDigit = true := by
            intro h
            rw [digitValue?_eq_some_iff.mpr ⟨h, rfl⟩] at hFirst
            cases hFirst
          simp [hNot]
      | some d =>
          obtain ⟨hDigit, rfl⟩ := digitValue?_eq_some_iff.mp hFirst
          cases hRest : cs.mapM digitValue? with
          | none =>
              have hNot : ¬∀ c ∈ cs, c.isDigit = true := by
                intro h
                rw [ih.mpr ⟨h, rfl⟩] at hRest
                cases hRest
              simp [hNot]
          | some ds' =>
              obtain ⟨hDigits, rfl⟩ := ih.mp hRest
              simpa [hDigit] using fun _ => hDigits

theorem ofDigits_map (cs : List Char) :
    ofDigits (cs.map fun c => c.toNat - '0'.toNat) = Nat.ofDigitChars 10 cs 0 := by
  rw [ofDigits, Nat.ofDigitChars_eq_foldl, List.foldl_map]

theorem readDigits?_eq_some_iff {cs : List Char} {n : Nat} :
    readDigits? cs = some n ↔ Writes cs n := by
  cases cs with
  | nil => exact iff_of_false nofun fun h => h.nonempty rfl
  | cons c cs =>
      have hRead : readDigits? (c :: cs) = ((c :: cs).mapM digitValue?).map ofDigits := rfl
      rw [hRead, Option.map_eq_some_iff]
      constructor
      · rintro ⟨ds, hValues, rfl⟩
        obtain ⟨hDigits, rfl⟩ := mapM_digitValue?_eq_some_iff.mp hValues
        exact ⟨List.cons_ne_nil _ _, hDigits, (ofDigits_map _).symm⟩
      · rintro ⟨-, hDigits, rfl⟩
        exact ⟨_, mapM_digitValue?_eq_some_iff.mpr ⟨hDigits, rfl⟩, ofDigits_map _⟩

/-- An optional plus sign, then digits that write the number. -/
def Numeral (cs : List Char) (n : Nat) : Prop :=
  ∃ digits, (cs = digits ∨ cs = '+' :: digits) ∧ Writes digits n

theorem readNat?_eq_some_iff {max n : Nat} {cs : List Char} :
    readNat? max cs = some n ↔ Numeral cs n ∧ n ≤ max := by
  have hSigned (rest : List Char) : ¬Writes ('+' :: rest) n := by
    intro h
    have hPlus := h.isDigit '+' (by simp)
    exact absurd hPlus (by decide)
  simp only [readNat?, Option.filter_eq_some_iff, readDigits?_eq_some_iff, decide_eq_true_eq, Numeral]
  refine and_congr_left fun _ => ?_
  split
  next rest =>
    constructor
    · intro h
      exact ⟨rest, Or.inr rfl, h⟩
    · rintro ⟨digits, rfl | hSame, h⟩
      · exact absurd h (hSigned rest)
      · cases hSame
        exact h
  next hPlain =>
    constructor
    · intro h
      exact ⟨cs, Or.inl rfl, h⟩
    · rintro ⟨digits, rfl | hSame, h⟩
      · exact h
      · exact absurd hSame (hPlain digits)

theorem writes_natText (n : Nat) : Writes (natText n).toList n where
  nonempty := by simp [natText]
  isDigit c hm := by
    rw [natText, Nat.toList_repr] at hm
    exact Nat.isDigit_of_mem_toDigits (by decide) (by decide) hm
  value := by simp [natText]

/-- No number but zero begins with a zero. -/
theorem head?_natText {n : Nat} (h : 0 < n) : (natText n).toList.head? ≠ some '0' := by
  rw [natText, Nat.toList_repr]
  induction n using Nat.strongRecOn with
  | ind n ih =>
      rw [Nat.toDigits_eq_if (by decide)]
      split
      next hLess =>
        simp
        omega
      next hMore =>
        rw [List.head?_append_of_ne_nil _ Nat.toDigits_ne_nil]
        exact ih (n / 10) (by omega) (by omega)

end NearCache
