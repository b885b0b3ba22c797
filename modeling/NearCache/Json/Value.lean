import NearCache.Json.Number

/-!
The value of a draft. Every string must be text, so an escaped surrogate must have its other half
right after it; every number must be in range; and the members of an object are put in the order of
their keys, where the last one of a key counts.
-/

namespace NearCache

/-- Whether a code unit is the first half of a surrogate pair. -/
def isHighSurrogate (n : Nat) : Bool :=
  0xD800 ≤ n && n < 0xDC00

/-- Whether a code unit is the second half of a surrogate pair. -/
def isLowSurrogate (n : Nat) : Bool :=
  0xDC00 ≤ n && n < 0xE000

/-- The character that a surrogate pair stands for. -/
def joinSurrogates (high low : Nat) : Char :=
  Char.ofNat (0x10000 + (high - 0xD800) * 0x400 + (low - 0xDC00))

/-- The characters that the parts of a string stand for, unless half of a surrogate pair stands
alone. -/
def partsChars? : List StringPart → Option (List Char)
  | [] => some []
  | .char c :: rest => (partsChars? rest).map (c :: ·)
  | .unit high :: .unit low :: rest =>
    if isHighSurrogate high then
      if isLowSurrogate low then (partsChars? rest).map (joinSurrogates high low :: ·) else none
    else if isLowSurrogate high then none
    else (partsChars? (.unit low :: rest)).map (Char.ofNat high :: ·)
  | .unit n :: rest =>
    if isHighSurrogate n || isLowSurrogate n then none
    else (partsChars? rest).map (Char.ofNat n :: ·)

/-- The text that the parts of a string stand for. -/
def partsText? (parts : List StringPart) : Option String :=
  (partsChars? parts).map String.ofList

namespace Draft

mutual

/-- The value of a draft, if all its parts have one. -/
def value? : Draft → Option Json
  | .null => some .null
  | .bool b => some (.bool b)
  | .number n => n.value?
  | .string s => (partsText? s).map .string
  | .array items => (itemValues? items).map .array
  | .object members => (memberValues? members).map .ofMembers

/-- The values of a list of drafts. -/
def itemValues? : List Draft → Option (List Json)
  | [] => some []
  | item :: items => do
    return (← value? item) :: (← itemValues? items)

/-- The keys and values of a list of members. -/
def memberValues? : List (List StringPart × Draft) → Option (List (String × Json))
  | [] => some []
  | (key, value) :: members => do
    return (← partsText? key, ← value? value) :: (← memberValues? members)

end

end Draft

namespace Json

/-- How many arrays and objects of a value may be inside one another. -/
def maxDepth : Nat := 127

/-- The value of a JSON text. -/
def ofText? (s : String) : Option Json :=
  (Draft.ofChars? maxDepth s.toList).bind Draft.value?

end Json

end NearCache
