import NearCache.Json.Draft
import NearCache.Json.Printer
import NearCache.Proofs.Text.Hex
import NearCache.Proofs.Text.Numeral

/-!
The printed text of a value is scanned as a draft in which each part of the value stands as it is
written. The scan takes the text of the value and nothing of what comes after it.
-/

namespace NearCache

/-- The part of a string as which a character is written: a control without a letter of its own is
written as a code unit. -/
def StringPart.ofChar (c : Char) : StringPart :=
  if c.toNat < 0x20 ∧ c ∉ ['\x08', '\t', '\n', '\x0c', '\r'] then .unit c.toNat else .char c

/-- An integer as it is written: a minus sign where needed, then its digits. -/
def NumberLiteral.ofInt (n : Int) : NumberLiteral where
  negative := n < 0
  whole := (natText n.natAbs).toList.map fun c => c.toNat - '0'.toNat
  fraction := []
  exponent := none

namespace Draft

/-- A text as it is written. -/
def parts (s : String) : List StringPart :=
  s.toList.map .ofChar

mutual

/-- A value without doubles as it is written. -/
def ofJson : Json → Draft
  | .null | .real _ => .null
  | .bool b => .bool b
  | .int n => .number (.ofInt n)
  | .string s => .string (parts s)
  | .array items => .array (ofItems items)
  | .object members => .object (ofMembers members)

def ofItems : List Json → List Draft
  | [] => []
  | item :: items => ofJson item :: ofItems items

def ofMembers : List (String × Json) → List (List StringPart × Draft)
  | [] => []
  | (key, value) :: members => (parts key, ofJson value) :: ofMembers members

end

theorem ofItems_eq_map (items : List Json) : ofItems items = items.map ofJson := by
  induction items with
  | nil => rfl
  | cons item items ih => rw [ofItems, ih, List.map_cons]

theorem ofMembers_eq_map (members : List (String × Json)) :
    ofMembers members = members.map fun m => (parts m.1, ofJson m.2) := by
  induction members with
  | nil => rfl
  | cons m members ih => rw [ofMembers, ih, List.map_cons]

section Strings

theorem scanString?_letter {letter plain : Char} (hPlain : unescape? letter = some plain)
    (hOther : letter ≠ 'u') (rest : List Char) :
    scanString? ('\\' :: letter :: rest) =
      (scanString? rest).map fun found => (.char plain :: found.1, found.2) := by
  rw [scanString?]
  · cases scanString? rest <;> simp [hPlain]
  · rintro a b c d cs hSame
    exact absurd hSame hOther

theorem scanString?_unit {n : Nat} (hn : n < 16 ^ 4) (rest : List Char) :
    scanString? ('\\' :: 'u' :: (hexDigits 4 n ++ rest)) =
      (scanString? rest).map fun found => (.unit n :: found.1, found.2) := by
  have hRead := readHex?_hexDigits 4 n
  rw [Nat.mod_eq_of_lt hn] at hRead
  simp only [hexDigits, List.nil_append, List.cons_append] at hRead ⊢
  cases hRest : scanString? rest <;> simp [scanString?, hRead, hRest]

theorem scanString?_plain {c : Char} (hQuote : c ≠ '"') (hSlash : c ≠ '\\') (hControl : ¬c.toNat < 0x20)
    (rest : List Char) :
    scanString? (c :: rest) = (scanString? rest).map fun found => (.char c :: found.1, found.2) := by
  rw [scanString?]
  · cases scanString? rest <;> simp [hControl]
  all_goals simp [hQuote, hSlash]

/-- A character is scanned as it is written. -/
theorem scanString?_escapeChar (c : Char) (rest : List Char) :
    scanString? (Json.escapeChar c ++ rest) =
      (scanString? rest).map fun found => (.ofChar c :: found.1, found.2) := by
  unfold Json.escapeChar
  split_ifs with hQuote hSlash hBack hTab hLine hFeed hReturn hControl
  · subst hQuote
    exact scanString?_letter (by decide) (by decide) rest
  · subst hSlash
    exact scanString?_letter (by decide) (by decide) rest
  · obtain rfl : c = '\x08' := Char.toNat_inj.mp hBack
    exact scanString?_letter (by decide) (by decide) rest
  · obtain rfl : c = '\t' := Char.toNat_inj.mp hTab
    exact scanString?_letter (by decide) (by decide) rest
  · obtain rfl : c = '\n' := Char.toNat_inj.mp hLine
    exact scanString?_letter (by decide) (by decide) rest
  · obtain rfl : c = '\x0c' := Char.toNat_inj.mp hFeed
    exact scanString?_letter (by decide) (by decide) rest
  · obtain rfl : c = '\r' := Char.toNat_inj.mp hReturn
    exact scanString?_letter (by decide) (by decide) rest
  · have hUnit : StringPart.ofChar c = .unit c.toNat := by
      refine if_pos ⟨hControl, ?_⟩
      simp [← Char.toNat_inj, hBack, hTab, hLine, hFeed, hReturn]
    rw [hUnit]
    exact scanString?_unit (by omega) rest
  · rw [StringPart.ofChar, if_neg (fun h => hControl h.1)]
    exact scanString?_plain hQuote hSlash hControl rest

/-- The characters of a text are scanned up to the closing quotation mark. -/
theorem scanString?_stringChars (s : String) (rest : List Char) :
    scanString? (s.toList.flatMap Json.escapeChar ++ '"' :: rest) = some (parts s, rest) := by
  rw [parts]
  induction s.toList with
  | nil => simp [scanString?]
  | cons c cs ih => rw [List.flatMap_cons, List.append_assoc, scanString?_escapeChar, ih]; rfl

end Strings

section Numbers

/-- What comes after a value inside an array or an object, or at the end of the text. -/
def Ends (rest : List Char) : Prop :=
  ∀ c, rest.head? = some c → c ∈ [',', ']', '\x7d']

theorem scanDigits_append {digits rest : List Char} (hDigits : ∀ c ∈ digits, c.isDigit = true)
    (hRest : Ends rest) :
    scanDigits (digits ++ rest) = (digits.map fun c => c.toNat - '0'.toNat, rest) := by
  induction digits with
  | nil =>
      cases rest with
      | nil => rfl
      | cons c rest =>
          have hOther : digitValue? c = none := by
            have hEnd := hRest c rfl
            simp only [List.mem_cons, List.not_mem_nil, or_false] at hEnd
            rcases hEnd with rfl | rfl | rfl <;> decide
          simp [scanDigits, hOther]
  | cons c digits ih =>
      have hFirst : digitValue? c = some (c.toNat - '0'.toNat) :=
        digitValue?_eq_some_iff.mpr ⟨hDigits c List.mem_cons_self, rfl⟩
      have hLater := ih fun d hm => hDigits d (List.mem_cons_of_mem c hm)
      simp only [List.cons_append, scanDigits, hFirst, hLater, List.map_cons]

theorem scanFraction?_of_ends {rest : List Char} (hRest : Ends rest) :
    scanFraction? rest = some ([], rest) := by
  unfold scanFraction?
  split
  next cs =>
    have hEnd := hRest '.' rfl
    simp at hEnd
  next => rfl

theorem scanExponent?_of_ends {rest : List Char} (hRest : Ends rest) :
    scanExponent? rest = some (none, rest) := by
  cases rest with
  | nil => rfl
  | cons c rest =>
      have hOther : ¬(c = 'e' ∨ c = 'E') := by
        have hEnd := hRest c rfl
        rintro (rfl | rfl) <;> simp at hEnd
      exact if_neg hOther

/-- The digits of a number do not begin with a zero before another digit. -/
theorem whole_natText (n : Nat) :
    ∃ d ds, ((natText n).toList.map fun c => c.toNat - '0'.toNat) = d :: ds ∧ (d = 0 → ds = []) := by
  have hWrites := writes_natText n
  cases hDigits : (natText n).toList with
  | nil => exact absurd hDigits hWrites.nonempty
  | cons c cs =>
      refine ⟨_, _, rfl, fun hZero => ?_⟩
      have hDigit := hWrites.isDigit c (by simp [hDigits])
      have hFirst : c = '0' := by
        have hRange : 48 ≤ c.toNat ∧ c.toNat ≤ 57 := Char.isDigit_iff_toNat.mp hDigit
        have hLow : c.toNat - 48 = 0 := hZero
        have hCode : c.toNat = 48 := by omega
        exact Char.toNat_inj.mp hCode
      have hNone : ¬0 < n := by
        intro hPos
        exact head?_natText hPos (by simp [hDigits, hFirst])
      obtain rfl : n = 0 := by omega
      have hShort : (natText 0).toList = ['0'] := by decide
      rw [hShort, List.cons.injEq] at hDigits
      simp [← hDigits.2]

/-- No minus sign begins the digits of a number. -/
theorem natText_append_ne (n : Nat) (rest cs : List Char) : (natText n).toList ++ rest ≠ '-' :: cs := by
  intro hSame
  cases hText : (natText n).toList with
  | nil => exact absurd hText (writes_natText n).nonempty
  | cons c _ =>
      rw [hText, List.cons_append, List.cons.injEq] at hSame
      have hDigit := (writes_natText n).isDigit '-' (by simp [hText, hSame.1])
      exact absurd hDigit (by decide)

theorem scanNumber?_intText (n : Int) {rest : List Char} (hRest : Ends rest) :
    scanNumber? ((intText n).toList ++ rest) = some (.ofInt n, rest) := by
  have hDigits := scanDigits_append (writes_natText n.natAbs).isDigit hRest
  have hUnsigned := natText_append_ne n.natAbs rest
  have hFraction := scanFraction?_of_ends hRest
  have hExponent := scanExponent?_of_ends hRest
  obtain ⟨d, ds, hWhole, hZero⟩ := whole_natText n.natAbs
  rw [NumberLiteral.ofInt, intText, hWhole]
  rw [hWhole] at hDigits
  by_cases hNegative : n < 0
  · rw [if_pos hNegative]
    cases d with
    | zero =>
        obtain rfl := hZero rfl
        simp [scanNumber?, hDigits, hFraction, hExponent, hNegative]
    | succ d => simp [scanNumber?, hDigits, hFraction, hExponent, hNegative]
  · rw [if_neg hNegative]
    cases d with
    | zero =>
        obtain rfl := hZero rfl
        simp [scanNumber?, hDigits, hFraction, hExponent, hNegative]
    | succ d => simp [scanNumber?, hDigits, hFraction, hExponent, hNegative]

end Numbers

end Draft

/-- A value without doubles, in which at most so many arrays and objects are inside one another. -/
inductive Json.Nests : Nat → Json → Prop
  | null (n : Nat) : Nests n .null
  | bool (n : Nat) (b : Bool) : Nests n (.bool b)
  | int (n : Nat) (i : Int) : Nests n (.int i)
  | string (n : Nat) (s : String) : Nests n (.string s)
  | array (n : Nat) (items : List Json) (h : ∀ item ∈ items, Nests n item) :
      Nests (n + 1) (.array items)
  | object (n : Nat) (members : List (String × Json)) (h : ∀ m ∈ members, Nests n m.2) :
      Nests (n + 1) (.object members)

namespace Draft

section Values

theorem skipSpace_cons {c : Char} (h : isSpace c = false) (cs : List Char) :
    skipSpace (c :: cs) = c :: cs :=
  List.dropWhile_cons_of_neg (by simp [h])

/-- A minus sign or a digit begins an integer. -/
theorem toList_intText (n : Int) :
    ∃ c cs, (intText n).toList = c :: cs ∧ (c = '-' ∨ c.isDigit = true) := by
  by_cases hNegative : n < 0
  · exact ⟨'-', (natText n.natAbs).toList, by simp [intText, hNegative], Or.inl rfl⟩
  · have hWrites := writes_natText n.natAbs
    cases hText : (natText n.natAbs).toList with
    | nil => exact absurd hText hWrites.nonempty
    | cons c cs =>
        refine ⟨c, cs, by simp [intText, hNegative, hText], Or.inr ?_⟩
        exact hWrites.isDigit c (by simp [hText])

/-- What begins an integer begins nothing else. -/
theorem not_mem_of_numeric {c : Char} (h : c = '-' ∨ c.isDigit = true) :
    c ∉ [' ', '\t', '\n', '\r', '"', '[', ']', '\x7b', 'n', 't', 'f'] := by
  rintro hm
  rcases h with rfl | hDigit
  · exact absurd hm (by decide)
  · have hNone : [' ', '\t', '\n', '\r', '"', '[', ']', '\x7b', 'n', 't', 'f'].all
        (fun d => !d.isDigit) = true := by decide
    simpa [hDigit] using List.all_eq_true.mp hNone c hm

/-- Neither a blank nor a closing bracket begins the text of a value. -/
theorem chars_eq_cons {n : Nat} {j : Json} (h : j.Nests n) :
    ∃ c cs, j.chars = c :: cs ∧ isSpace c = false ∧ c ≠ ']' := by
  cases h with
  | null => exact ⟨_, _, rfl, by decide⟩
  | bool n b => cases b <;> exact ⟨_, _, rfl, by decide⟩
  | int n i =>
      obtain ⟨c, cs, hText, hFirst⟩ := toList_intText i
      have hOther := not_mem_of_numeric hFirst
      simp only [List.mem_cons, not_or] at hOther
      exact ⟨c, cs, hText, by simp [isSpace, hOther], hOther.2.2.2.2.2.2.1⟩
  | string n s => exact ⟨_, _, rfl, by decide⟩
  | array n items h => cases items <;> exact ⟨_, _, rfl, by decide⟩
  | object n members h =>
      cases members with
      | nil => exact ⟨_, _, rfl, by decide⟩
      | cons m members => exact ⟨_, _, rfl, by decide⟩

/-- The text of the value is scanned as the value is written, whatever comes after it, given two steps
for each character. -/
def Scans (depth : Nat) (j : Json) : Prop :=
  ∀ fuel rest, 2 * j.chars.length ≤ fuel + 1 → Ends rest →
    scanValue? (fuel + 1) depth (j.chars ++ rest) = some (ofJson j, rest)

theorem scans_int (depth : Nat) (n : Int) : Scans depth (.int n) := by
  intro fuel rest hFuel hRest
  have hNumber := scanNumber?_intText n hRest
  obtain ⟨c, cs, hText, hFirst⟩ := toList_intText n
  have hOther := not_mem_of_numeric hFirst
  simp only [List.mem_cons, List.not_mem_nil, or_false, not_or] at hOther
  obtain ⟨hSpace, hTab, hLine, hReturn, hQuote, hBracket, -, hBrace, hn, ht, hf⟩ := hOther
  have hBlank : isSpace c = false := by simp [isSpace, hSpace, hTab, hLine, hReturn]
  rw [Json.chars, hText, List.cons_append, scanValue?, skipSpace_cons hBlank]
  rw [hText, List.cons_append] at hNumber
  simp [hn, ht, hf, hNumber, ofJson]

theorem scans_string (depth : Nat) (s : String) : Scans depth (.string s) := by
  intro fuel rest hFuel hRest
  have hString := scanString?_stringChars s rest
  simp only [Json.chars, Json.stringChars, List.cons_append, List.append_assoc, List.nil_append]
  rw [scanValue?, skipSpace_cons (by decide)]
  simp [hString, ofJson]

theorem ends_cons {c : Char} (h : c ∈ [',', ']', '\x7d']) (rest : List Char) : Ends (c :: rest) := by
  rintro d hd
  obtain rfl : c = d := by simpa using hd
  exact h

theorem scanItems?_chars {depth : Nat} {item : Json} {items : List Json}
    (h : ∀ i ∈ item :: items, Scans depth i) (fuel : Nat) (rest : List Char)
    (hFuel : 2 * (item.chars ++ Json.itemsChars items).length ≤ fuel + 1) :
    scanItems? (fuel + 1) depth (item.chars ++ (Json.itemsChars items ++ rest)) =
      some (ofItems (item :: items), rest) := by
  induction items generalizing item fuel with
  | nil =>
      simp only [Json.itemsChars, List.length_append, List.length_cons, List.length_nil] at hFuel
      obtain ⟨fuel, rfl⟩ : ∃ k, fuel = k + 1 := ⟨fuel - 1, by omega⟩
      have hItem := h item List.mem_cons_self fuel (']' :: rest) (by omega) (ends_cons (by decide) _)
      rw [scanItems?, Json.itemsChars, List.cons_append, List.nil_append, hItem]
      dsimp only
      rw [skipSpace_cons (by decide)]
      rfl
  | cons next items ih =>
      simp only [Json.itemsChars, List.length_append, List.length_cons] at hFuel
      obtain ⟨fuel, rfl⟩ : ∃ k, fuel = k + 1 := ⟨fuel - 1, by omega⟩
      rw [List.forall_mem_cons] at h
      have hItem := h.1 fuel (',' :: (next.chars ++ (Json.itemsChars items ++ rest))) (by omega)
        (ends_cons (by decide) _)
      have hLater := ih h.2 fuel (by rw [List.length_append]; omega)
      rw [scanItems?, Json.itemsChars, List.cons_append, List.cons_append, List.append_assoc, hItem]
      dsimp only
      rw [skipSpace_cons (by decide)]
      simp only [hLater, Option.map_some]
      rfl

/-- A key is scanned up to the colon after it. -/
theorem scanKey?_stringChars (key : String) (rest : List Char) :
    scanKey? (Json.stringChars key ++ ':' :: rest) = some (parts key, rest) := by
  have hString := scanString?_stringChars key (':' :: rest)
  simp only [Json.stringChars, List.cons_append, List.append_assoc, List.nil_append]
  rw [scanKey?, skipSpace_cons (by decide)]
  simp [hString, skipSpace_cons (show isSpace ':' = false by decide)]

theorem scanMembers?_chars {depth : Nat} {key : String} {value : Json} {members : List (String × Json)}
    (h : ∀ m ∈ (key, value) :: members, Scans depth m.2) (fuel : Nat) (rest : List Char)
    (hFuel : 2 * (value.chars ++ Json.membersChars members).length ≤ fuel + 1) :
    scanMembers? (fuel + 1) depth
        (Json.stringChars key ++ ':' :: (value.chars ++ (Json.membersChars members ++ rest))) =
      some (ofMembers ((key, value) :: members), rest) := by
  induction members generalizing key value fuel with
  | nil =>
      simp only [Json.membersChars, List.length_append, List.length_cons, List.length_nil] at hFuel
      obtain ⟨fuel, rfl⟩ : ∃ k, fuel = k + 1 := ⟨fuel - 1, by omega⟩
      have hValue := h (key, value) List.mem_cons_self fuel ('\x7d' :: rest) (by simp; omega)
        (ends_cons (by decide) _)
      rw [scanMembers?, scanKey?_stringChars, Json.membersChars, List.cons_append, List.nil_append]
      dsimp only
      rw [hValue]
      dsimp only
      rw [skipSpace_cons (by decide)]
      rfl
  | cons next members ih =>
      obtain ⟨nextKey, next⟩ := next
      simp only [Json.membersChars, List.length_append, List.length_cons] at hFuel
      obtain ⟨fuel, rfl⟩ : ∃ k, fuel = k + 1 := ⟨fuel - 1, by omega⟩
      rw [List.forall_mem_cons] at h
      have hValue := h.1 fuel (',' :: (Json.stringChars nextKey ++
        ':' :: (next.chars ++ (Json.membersChars members ++ rest)))) (by simp; omega)
        (ends_cons (by decide) _)
      have hLater := ih h.2 fuel (by rw [List.length_append]; omega)
      rw [scanMembers?, scanKey?_stringChars, Json.membersChars]
      dsimp only
      simp only [List.cons_append, List.append_assoc]
      rw [hValue]
      dsimp only
      rw [skipSpace_cons (by decide)]
      simp only [hLater, Option.map_some]
      rfl

theorem scans_array {depth : Nat} {items : List Json} (h : ∀ item ∈ items, Scans depth item)
    (hNests : ∀ item ∈ items, item.Nests depth) : Scans (depth + 1) (.array items) := by
  intro fuel rest hFuel hRest
  cases items with
  | nil =>
      simp only [Json.chars, List.cons_append, List.nil_append]
      rw [scanValue?, skipSpace_cons (by decide)]
      simp [skipSpace_cons (show isSpace ']' = false by decide), ofJson, ofItems]
  | cons item items =>
      simp only [Json.chars, List.length_cons, List.cons_append] at hFuel
      obtain ⟨fuel, rfl⟩ : ∃ k, fuel = k + 1 := ⟨fuel - 1, by omega⟩
      have hItems := scanItems?_chars h fuel rest (by omega)
      -- What begins the first item tells the array from the empty one.
      obtain ⟨c, cs, hText, hBlank, hOpen⟩ := chars_eq_cons (hNests item List.mem_cons_self)
      simp only [Json.chars, List.cons_append, List.append_assoc]
      rw [scanValue?, skipSpace_cons (by decide)]
      rw [hText, List.cons_append] at hItems ⊢
      simp [skipSpace_cons hBlank, hOpen, hItems, ofJson]

theorem scans_object {depth : Nat} {members : List (String × Json)}
    (h : ∀ m ∈ members, Scans depth m.2) : Scans (depth + 1) (.object members) := by
  intro fuel rest hFuel hRest
  cases members with
  | nil =>
      simp only [Json.chars, List.cons_append, List.nil_append]
      rw [scanValue?, skipSpace_cons (by decide)]
      simp [skipSpace_cons (show isSpace '\x7d' = false by decide), ofJson, ofMembers]
  | cons m members =>
      obtain ⟨key, value⟩ := m
      simp only [Json.chars, List.length_cons, List.length_append, List.cons_append] at hFuel
      obtain ⟨fuel, rfl⟩ : ∃ k, fuel = k + 1 := ⟨fuel - 1, by omega⟩
      have hMembers := scanMembers?_chars h fuel rest (by rw [List.length_append]; omega)
      simp only [Json.chars, Json.stringChars, List.cons_append, List.append_assoc, List.nil_append]
        at hMembers ⊢
      rw [scanValue?, skipSpace_cons (by decide)]
      simp [skipSpace_cons (show isSpace '"' = false by decide), hMembers, ofJson]

/-- The text of a value is scanned as the value is written. -/
theorem scans_of_nests {depth : Nat} {j : Json} (h : j.Nests depth) : Scans depth j := by
  induction h with
  | null n =>
      intro fuel rest hFuel hRest
      simp only [Json.chars, List.cons_append, List.nil_append]
      rw [scanValue?, skipSpace_cons (by decide)]
      simp [expect?, ofJson]
  | bool n b =>
      intro fuel rest hFuel hRest
      cases b
      all_goals
        simp only [Json.chars, List.cons_append, List.nil_append]
        rw [scanValue?, skipSpace_cons (by decide)]
        simp [expect?, ofJson]
  | int n i => exact scans_int n i
  | string n s => exact scans_string n s
  | array n items h ih => exact scans_array ih h
  | object n members h ih => exact scans_object ih

/-- The text of a value has the draft as which the value is written. -/
theorem ofChars?_chars {depth : Nat} {j : Json} (h : j.Nests depth) :
    ofChars? depth j.chars = some (ofJson j) := by
  have hScan := scans_of_nests h (2 * j.chars.length + 1) [] (by omega) nofun
  rw [List.append_nil] at hScan
  rw [ofChars?, hScan]
  rfl

end Values

end Draft

namespace Json

/-- A value nests no deeper than a greater bound. -/
theorem Nests.mono {n m : Nat} {j : Json} (h : j.Nests n) (hLess : n ≤ m) : j.Nests m := by
  induction h generalizing m with
  | null n => exact .null m
  | bool n b => exact .bool m b
  | int n i => exact .int m i
  | string n s => exact .string m s
  | array n items h ih =>
      obtain ⟨k, rfl⟩ : ∃ k, m = k + 1 := ⟨m - 1, by omega⟩
      exact .array k items fun item hm => ih item hm (by omega)
  | object n members h ih =>
      obtain ⟨k, rfl⟩ : ∃ k, m = k + 1 := ⟨m - 1, by omega⟩
      exact .object k members fun m hm => ih m hm (by omega)

theorem length_lt_itemsChars {item : Json} {items : List Json} (hm : item ∈ items) :
    item.chars.length < (itemsChars items).length := by
  induction items with
  | nil => cases hm
  | cons next items ih =>
      simp only [itemsChars, List.length_append, List.length_cons]
      rcases List.mem_cons.mp hm with rfl | hm
      · omega
      · have hLater := ih hm
        omega

theorem length_lt_array {item : Json} {items : List Json} (hm : item ∈ items) :
    item.chars.length < (Json.array items).chars.length := by
  cases items with
  | nil => cases hm
  | cons first items =>
      simp only [chars, List.length_append, List.length_cons]
      rcases List.mem_cons.mp hm with rfl | hm
      · omega
      · have hLater := length_lt_itemsChars hm
        omega

theorem length_lt_membersChars {m : String × Json} {members : List (String × Json)} (hm : m ∈ members) :
    m.2.chars.length < (membersChars members).length := by
  induction members with
  | nil => cases hm
  | cons next members ih =>
      obtain ⟨key, value⟩ := next
      simp only [membersChars, List.length_append, List.length_cons]
      rcases List.mem_cons.mp hm with rfl | hm
      · dsimp only
        omega
      · have hLater := ih hm
        omega

theorem length_lt_object {m : String × Json} {members : List (String × Json)} (hm : m ∈ members) :
    m.2.chars.length < (Json.object members).chars.length := by
  cases members with
  | nil => cases hm
  | cons first members =>
      obtain ⟨key, value⟩ := first
      simp only [chars, List.length_append, List.length_cons]
      rcases List.mem_cons.mp hm with rfl | hm
      · dsimp only
        omega
      · have hLater := length_lt_membersChars hm
        omega

/-- Every array and every object of a value takes a character of its text, so none nests deeper than the
text is long. -/
theorem Nests.of_length {n : Nat} {j : Json} (h : j.Nests n) : j.Nests j.chars.length := by
  induction h with
  | null n => exact .null _
  | bool n b => exact .bool _ b
  | int n i => exact .int _ i
  | string n s => exact .string _ s
  | array n items h ih =>
      obtain ⟨k, hLength⟩ : ∃ k, (Json.array items).chars.length = k + 1 := by
        cases items <;> simp [chars]
      rw [hLength]
      refine .array k items fun item hm => (ih item hm).mono ?_
      have hLess := length_lt_array hm
      omega
  | object n members h ih =>
      obtain ⟨k, hLength⟩ : ∃ k, (Json.object members).chars.length = k + 1 := by
        rcases members with _ | ⟨⟨key, value⟩, members⟩ <;> simp [chars]
      rw [hLength]
      refine .object k members fun m hm => (ih m hm).mono ?_
      have hLess := length_lt_object hm
      omega

end Json

end NearCache
