import Mathlib.Data.List.DropRight
import NearCache.Proofs.Text.Numeral
import NearCache.Version

/-!
The texts that are read as a version, and the version that each of them names. The text of a version is
one of them, with blanks around it and with a label or without.
-/

namespace NearCache

theorem splitOnChar_eq (sep : Char) (cs : List Char) : splitOnChar sep cs = cs.splitOn sep := by
  induction cs with
  | nil => simp [splitOnChar]
  | cons c cs ih =>
      rw [splitOnChar, ih, List.splitOn_cons_eq_if_modifyHead]
      cases hParts : cs.splitOn sep with
      | nil => exact absurd hParts (List.splitOn_ne_nil sep cs)
      | cons part parts => simp

/-- The text is another one without the blanks around it. -/
structure Trims (cs trimmed : List Char) : Prop where
  around : ∃ left right, cs = left ++ trimmed ++ right ∧ (∀ c ∈ left, isBlank c = true) ∧
    ∀ c ∈ right, isBlank c = true
  first : ∀ c, trimmed.head? = some c → isBlank c = false
  last : ∀ c, trimmed.getLast? = some c → isBlank c = false

theorem dropWhile_of_head {cs rest : List Char} (hBlank : ∀ c ∈ cs, isBlank c = true)
    (hRest : ∀ c, rest.head? = some c → isBlank c = false) :
    (cs ++ rest).dropWhile isBlank = rest := by
  rw [List.dropWhile_append_of_pos hBlank]
  cases rest with
  | nil => rfl
  | cons c rest => exact List.dropWhile_cons_of_neg (by simp [hRest c rfl])

theorem Trims.eq {cs trimmed : List Char} (h : Trims cs trimmed) : trimBlank cs = trimmed := by
  obtain ⟨⟨left, right, rfl, hLeft, hRight⟩, hFirst, hLast⟩ := h
  have hFront : (left ++ trimmed ++ right).dropWhile isBlank =
      if trimmed = [] then [] else trimmed ++ right := by
    cases trimmed with
    | nil =>
        rw [List.append_nil, List.dropWhile_append_of_pos hLeft]
        exact List.dropWhile_eq_nil_iff.mpr hRight
    | cons c trimmed =>
        have hHead : ∀ d, (c :: trimmed ++ right).head? = some d → isBlank d = false := hFirst
        rw [List.append_assoc, dropWhile_of_head hLeft hHead]
        rfl
  rw [trimBlank, hFront]
  by_cases hNone : trimmed = []
  · simp [hNone]
  · rw [if_neg hNone, List.reverse_append, dropWhile_of_head (by simpa using hRight), List.reverse_reverse]
    intro c hc
    rw [List.head?_reverse] at hc
    exact hLast c hc

theorem trims_trimBlank (cs : List Char) : Trims cs (trimBlank cs) where
  around := by
    refine ⟨cs.takeWhile isBlank, (cs.dropWhile isBlank).rtakeWhile isBlank, ?_, ?_, ?_⟩
    · show cs = cs.takeWhile isBlank ++ (cs.dropWhile isBlank).rdropWhile isBlank ++ _
      rw [List.append_assoc, List.rdropWhile_append_rtakeWhile, List.takeWhile_append_dropWhile]
    · exact fun c hm => List.mem_takeWhile_imp hm
    · exact fun c hm => List.mem_rtakeWhile_imp hm
  first c hc := by
    obtain ⟨right, hFront⟩ := List.rdropWhile_prefix isBlank (cs.dropWhile isBlank)
    have hHead := List.head?_dropWhile_not isBlank cs
    change (List.rdropWhile _ _).head? = some c at hc
    rw [← hFront, List.head?_append, hc] at hHead
    exact hHead
  last c hc := by
    have hHead := List.head?_dropWhile_not isBlank (cs.dropWhile isBlank).reverse
    rw [trimBlank, List.getLast?_reverse] at hc
    rw [hc] at hHead
    exact hHead

theorem Trims.pad {cs trimmed left right : List Char} (h : Trims trimmed trimmed)
    (hParts : cs = left ++ trimmed ++ right) (hLeft : ∀ c ∈ left, isBlank c = true)
    (hRight : ∀ c ∈ right, isBlank c = true) : Trims cs trimmed :=
  ⟨⟨left, right, hParts, hLeft, hRight⟩, h.first, h.last⟩

namespace ServerVersion

/-- The text is two or three numbers with dots between them, and these are the numbers of the version. -/
def Names (core : List Char) (v : ServerVersion) : Prop :=
  ∃ major minor, Numeral major v.major.toNat ∧ Numeral minor v.minor.toNat ∧
    (core = major ++ '.' :: minor ∧ v.patch = 0 ∨
      ∃ patch, core = major ++ '.' :: minor ++ '.' :: patch ∧ Numeral patch v.patch.toNat)

theorem readPart?_eq_some_iff {cs : List Char} {n : UInt16} :
    readPart? cs = some n ↔ Numeral cs n.toNat := by
  simp only [readPart?, Option.map_eq_some_iff, readNat?_eq_some_iff]
  constructor
  · rintro ⟨k, ⟨hNumeral, hMax⟩, rfl⟩
    rwa [UInt16.toNat_ofNat_of_lt' (by simp [UInt16.size]; omega)]
  · intro h
    have hLess := n.toNat_lt
    exact ⟨n.toNat, ⟨h, by omega⟩, UInt16.ofNat_toNat⟩

theorem not_mem_of_numeral {cs : List Char} {n : Nat} (h : Numeral cs n) {c : Char}
    (hDigit : c.isDigit = false) (hPlus : c ≠ '+') : c ∉ cs := by
  obtain ⟨digits, rfl | rfl, hWrites⟩ := h
  · intro hm
    have hSame := hWrites.isDigit c hm
    simp [hDigit] at hSame
  · intro hm
    rcases List.mem_cons.mp hm with rfl | hm
    · exact hPlus rfl
    · have hSame := hWrites.isDigit c hm
      simp [hDigit] at hSame

theorem ofParts?_splitOnChar {core : List Char} {v : ServerVersion} :
    ofParts? (splitOnChar '.' core) = some v ↔ Names core v := by
  rw [splitOnChar_eq]
  constructor
  · intro h
    have hCore : ['.'].intercalate (core.splitOn '.') = core := List.intercalate_splitOn '.'
    generalize core.splitOn '.' = parts at h hCore
    subst hCore
    unfold ofParts? at h
    split at h
    next major minor =>
      simp only [Option.bind_eq_bind, Option.bind_eq_some_iff, Option.pure_def, Option.some.injEq,
        readPart?_eq_some_iff] at h
      obtain ⟨m, hMajor, n, hMinor, rfl⟩ := h
      exact ⟨major, minor, hMajor, hMinor, Or.inl ⟨by simp [List.intercalate], rfl⟩⟩
    next major minor patch =>
      simp only [Option.bind_eq_bind, Option.bind_eq_some_iff, Option.pure_def, Option.some.injEq,
        readPart?_eq_some_iff] at h
      obtain ⟨m, hMajor, n, hMinor, k, hPatch, rfl⟩ := h
      exact ⟨major, minor, hMajor, hMinor, Or.inr ⟨patch, by simp [List.intercalate], hPatch⟩⟩
    next => cases h
  · rintro ⟨major, minor, hMajor, hMinor, hRest⟩
    have hMajorDot : '.' ∉ major := not_mem_of_numeral hMajor (by decide) (by decide)
    have hMinorDot : '.' ∉ minor := not_mem_of_numeral hMinor (by decide) (by decide)
    rcases hRest with ⟨rfl, hPatch⟩ | ⟨patch, rfl, hPatch⟩
    · rw [List.splitOn_append_cons_self_of_not_mem hMajorDot, List.splitOn_eq_singleton hMinorDot]
      simp only [ofParts?, readPart?_eq_some_iff.mpr hMajor, readPart?_eq_some_iff.mpr hMinor, ← hPatch]
      rfl
    · have hPatchDot : '.' ∉ patch := not_mem_of_numeral hPatch (by decide) (by decide)
      rw [List.append_assoc, List.cons_append, List.splitOn_append_cons_self_of_not_mem hMajorDot,
        List.splitOn_append_cons_self_of_not_mem hMinorDot, List.splitOn_eq_singleton hPatchDot]
      simp only [ofParts?, readPart?_eq_some_iff.mpr hMajor, readPart?_eq_some_iff.mpr hMinor,
        readPart?_eq_some_iff.mpr hPatch]
      rfl

theorem takeWhile_eq_iff {cs core : List Char} :
    cs.takeWhile (· ≠ '-') = core ↔
      '-' ∉ core ∧ (cs = core ∨ ∃ label, cs = core ++ '-' :: label) := by
  constructor
  · rintro rfl
    refine ⟨fun hm => by simpa using List.mem_takeWhile_imp hm, ?_⟩
    have hWhole := @List.takeWhile_append_dropWhile _ (· ≠ '-') cs
    have hHead := List.head?_dropWhile_not (· ≠ '-') cs
    cases hAfter : cs.dropWhile (· ≠ '-') with
    | nil =>
        rw [hAfter, List.append_nil] at hWhole
        exact Or.inl hWhole.symm
    | cons dash label =>
        rw [hAfter] at hWhole hHead
        obtain rfl : dash = '-' := by simpa using hHead
        exact Or.inr ⟨label, hWhole.symm⟩
  · rintro ⟨hNone, hCore⟩
    have hAll : ∀ c ∈ core, decide (c ≠ '-') = true := by
      intro c hm
      rw [decide_eq_true_eq]
      rintro rfl
      exact hNone hm
    rcases hCore with rfl | ⟨label, rfl⟩
    · exact List.takeWhile_eq_self_iff.mpr hAll
    · rw [List.takeWhile_append_of_pos hAll]
      simp

theorem parse?_eq_some_iff {s : String} {v : ServerVersion} :
    parse? s = some v ↔
      ∃ trimmed core, Trims s.toList trimmed ∧ '-' ∉ core ∧
        (trimmed = core ∨ ∃ label, trimmed = core ++ '-' :: label) ∧ Names core v := by
  rw [parse?, ofParts?_splitOnChar]
  constructor
  · intro h
    obtain ⟨hDash, hCore⟩ := takeWhile_eq_iff.mp (Eq.refl ((trimBlank s.toList).takeWhile (· ≠ '-')))
    exact ⟨_, _, trims_trimBlank s.toList, hDash, hCore, h⟩
  · rintro ⟨trimmed, core, hTrims, hDash, hCore, h⟩
    rwa [hTrims.eq, takeWhile_eq_iff.mpr ⟨hDash, hCore⟩]

theorem numeral_natText (n : Nat) : Numeral (natText n).toList n :=
  ⟨_, Or.inl rfl, writes_natText n⟩

theorem names_text (v : ServerVersion) : Names v.text.toList v :=
  ⟨_, _, numeral_natText _, numeral_natText _, Or.inr ⟨_, by simp [text], numeral_natText _⟩⟩

theorem not_dash_of_text (v : ServerVersion) : '-' ∉ v.text.toList := by
  have hPart (n : Nat) : '-' ∉ (natText n).toList :=
    not_mem_of_numeral (numeral_natText n) (by decide) (by decide)
  simp [text, hPart]

theorem isBlank_of_isDigit {c : Char} (h : c.isDigit = true) : isBlank c = false := by
  have hRange : 48 ≤ c.toNat ∧ c.toNat ≤ 57 := Char.isDigit_iff_toNat.mp h
  simp [isBlank]
  omega

/-- No blank begins or ends the text of a version, which has a digit at both ends. -/
theorem trims_text (v : ServerVersion) : Trims v.text.toList v.text.toList where
  around := ⟨[], [], by simp, nofun, nofun⟩
  first c hc := by
    have hPart := writes_natText v.major.toNat
    rw [text, String.toList_append, String.toList_append, String.toList_append, String.toList_append,
      List.append_assoc, List.append_assoc, List.append_assoc,
      List.head?_append_of_ne_nil _ hPart.nonempty] at hc
    exact isBlank_of_isDigit (hPart.isDigit c (List.mem_of_mem_head? hc))
  last c hc := by
    have hPart := writes_natText v.patch.toNat
    rw [text, String.toList_append, List.getLast?_append_of_ne_nil _ hPart.nonempty] at hc
    exact isBlank_of_isDigit (hPart.isDigit c (List.mem_of_getLast? hc))

theorem text_ne_nil (v : ServerVersion) : v.text.toList ≠ [] := by
  simp [text]

/-- No blank begins or ends the text of a version with a label that ends in no blank. -/
theorem trims_labelled (v : ServerVersion) {label : List Char}
    (h : ∀ c, label.getLast? = some c → isBlank c = false) :
    Trims (v.text.toList ++ '-' :: label) (v.text.toList ++ '-' :: label) where
  around := ⟨[], [], by simp, nofun, nofun⟩
  first c hc := by
    rw [List.head?_append_of_ne_nil _ v.text_ne_nil] at hc
    exact v.trims_text.first c hc
  last c hc := by
    rw [List.getLast?_append_of_ne_nil _ (List.cons_ne_nil _ _)] at hc
    cases label with
    | nil =>
        obtain rfl : '-' = c := by simpa using hc
        decide
    | cons d label => exact h c hc

/-- The texts that are read as a version, and which one each of them names: without the blanks around
it, and up to the first dash if there is one, the text is made of its numbers. The text of a version is
read as that version, alone or with a label after a dash, and with any blanks around it. -/
theorem parse?_grammar :
    (∀ (s : String) (v : ServerVersion), parse? s = some v ↔
      ∃ trimmed core, Trims s.toList trimmed ∧ '-' ∉ core ∧
        (trimmed = core ∨ ∃ label, trimmed = core ++ '-' :: label) ∧ Names core v) ∧
    ∀ (v : ServerVersion) (left right : String), (∀ c ∈ left.toList, isBlank c = true) →
      (∀ c ∈ right.toList, isBlank c = true) →
        parse? (left ++ v.text ++ right) = some v ∧
          ∀ label : String, (∀ c, label.toList.getLast? = some c → isBlank c = false) →
            parse? (left ++ (v.text ++ "-" ++ label) ++ right) = some v := by
  refine ⟨fun s v => parse?_eq_some_iff, fun v left right hLeft hRight => ⟨?_, fun label hLabel => ?_⟩⟩
  · have hTrims : Trims (left ++ v.text ++ right).toList v.text.toList :=
      v.trims_text.pad (by simp) hLeft hRight
    exact parse?_eq_some_iff.mpr ⟨_, _, hTrims, v.not_dash_of_text, Or.inl rfl, v.names_text⟩
  · have hTrims : Trims (left ++ (v.text ++ "-" ++ label) ++ right).toList
        (v.text.toList ++ '-' :: label.toList) :=
      (v.trims_labelled hLabel).pad (by simp) hLeft hRight
    exact parse?_eq_some_iff.mpr
      ⟨_, _, hTrims, v.not_dash_of_text, Or.inr ⟨label.toList, rfl⟩, v.names_text⟩

theorem parse?_grammar_padded :
    parse? ("\t\u3000" ++ text ⟨4, 12, 65535⟩ ++ " ") = some ⟨4, 12, 65535⟩ ∧
      parse? ("\t\u3000" ++ (text ⟨4, 12, 65535⟩ ++ "-" ++ "rc-1") ++ " ") = some ⟨4, 12, 65535⟩ := by
  have hLeft : "\t\u3000".toList.all isBlank = true := by decide
  have hRight : " ".toList.all isBlank = true := by decide
  obtain ⟨hAlone, hLabelled⟩ := parse?_grammar.2 ⟨4, 12, 65535⟩ "\t\u3000" " "
    (List.all_eq_true.mp hLeft) (List.all_eq_true.mp hRight)
  refine ⟨hAlone, hLabelled "rc-1" fun c hc => ?_⟩
  cases hc
  decide

end ServerVersion

end NearCache
