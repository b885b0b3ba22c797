import NearCache.Text.Hex
import NearCache.Text.Decimal

/-!
Drafts: the structure of a JSON text, before its strings and numbers are given a value. A draft keeps
a number as its digits and an escaped code unit as a number, so a text can be accepted although a
part of it that nobody asks for has no value: a number beyond all doubles, half of a surrogate pair.
-/

namespace NearCache

/-- A number as it is written, digit by digit. A fraction without digits is none at all. -/
structure NumberLiteral where
  negative : Bool
  whole : List Nat
  fraction : List Nat
  /-- Whether the exponent is negative, and its digits. -/
  exponent : Option (Bool × List Nat)
deriving DecidableEq, Repr

/-- A part of a written string. -/
inductive StringPart
  | char (c : Char)
  /-- A code unit of UTF-16, written with four hexadecimal digits. -/
  | unit (n : Nat)
deriving DecidableEq, Repr

/-- The structure of a JSON text. -/
inductive Draft
  | null
  | bool (b : Bool)
  | number (n : NumberLiteral)
  | string (s : List StringPart)
  | array (items : List Draft)
  | object (members : List (List StringPart × Draft))
deriving Repr, Inhabited

namespace Draft

/-- The blanks between the parts of a JSON text. -/
def isSpace (c : Char) : Bool :=
  c = ' ' || c = '\t' || c = '\n' || c = '\r'

/-- A text without the blanks at its start. -/
def skipSpace (cs : List Char) : List Char :=
  cs.dropWhile isSpace

/-- The digits at the start of a text, and the rest. -/
def scanDigits : List Char → List Nat × List Char
  | [] => ([], [])
  | c :: cs =>
    match digitValue? c with
    | some d => (d :: (scanDigits cs).1, (scanDigits cs).2)
    | none => ([], c :: cs)

/-- The fraction at the start of a text, if there is one: a point with a digit after it. -/
def scanFraction? : List Char → Option (List Nat × List Char)
  | '.' :: cs =>
    match scanDigits cs with
    | ([], _) => none
    | found => some found
  | cs => some ([], cs)

/-- The exponent at the start of a text, if there is one. -/
def scanExponent? : List Char → Option (Option (Bool × List Nat) × List Char)
  | [] => some (none, [])
  | c :: cs =>
    if c = 'e' ∨ c = 'E' then
      let (negative, cs) := match cs with
        | '-' :: rest => (true, rest)
        | '+' :: rest => (false, rest)
        | _ => (false, cs)
      match scanDigits cs with
      | ([], _) => none
      | (digits, rest) => some (some (negative, digits), rest)
    else some (none, c :: cs)

/-- The number at the start of a text. Its whole part has a digit, and no zero before another one. -/
def scanNumber? (cs : List Char) : Option (NumberLiteral × List Char) :=
  let (negative, cs) := match cs with
    | '-' :: rest => (true, rest)
    | _ => (false, cs)
  match scanDigits cs with
  | ([], _) => none
  | (0 :: _ :: _, _) => none
  | (whole, cs) => do
    let (fraction, cs) ← scanFraction? cs
    let (exponent, cs) ← scanExponent? cs
    return (⟨negative, whole, fraction, exponent⟩, cs)

/-- The character that a letter after a backslash stands for. -/
def unescape? (c : Char) : Option Char :=
  if c = '"' ∨ c = '\\' ∨ c = '/' then some c
  else if c = 'b' then some '\x08'
  else if c = 'f' then some '\x0c'
  else if c = 'n' then some '\n'
  else if c = 'r' then some '\r'
  else if c = 't' then some '\t'
  else none

/-- The rest of a string after its opening quotation mark, and what follows the closing one. -/
def scanString? : List Char → Option (List StringPart × List Char)
  | [] => none
  | '"' :: cs => some ([], cs)
  | '\\' :: 'u' :: a :: b :: c :: d :: cs => do
    let unit ← readHex? [a, b, c, d]
    let (parts, rest) ← scanString? cs
    return (.unit unit :: parts, rest)
  | '\\' :: c :: cs => do
    let plain ← unescape? c
    let (parts, rest) ← scanString? cs
    return (.char plain :: parts, rest)
  | c :: cs =>
    if c.toNat < 0x20 then none
    else do
      let (parts, rest) ← scanString? cs
      return (.char c :: parts, rest)

/-- The text after a fixed word at its start. -/
def expect? (word cs : List Char) : Option (List Char) :=
  if word.isPrefixOf cs then some (cs.drop word.length) else none

/-- The key at the start of a text, and what follows the colon after it. -/
def scanKey? (cs : List Char) : Option (List StringPart × List Char) :=
  match skipSpace cs with
  | '"' :: cs => do
    let (key, cs) ← scanString? cs
    match skipSpace cs with
    | ':' :: cs => return (key, cs)
    | _ => none
  | _ => none

mutual

/-- The value at the start of a text, with at most `depth` arrays and objects inside one another. -/
def scanValue? (fuel depth : Nat) (cs : List Char) : Option (Draft × List Char) :=
  match fuel with
  | 0 => none
  | fuel + 1 =>
    match skipSpace cs with
    | [] => none
    | '"' :: cs => (scanString? cs).map fun found => (.string found.1, found.2)
    | '[' :: cs =>
      if depth = 0 then none
      else
        match skipSpace cs with
        | ']' :: cs => some (.array [], cs)
        | cs => (scanItems? fuel (depth - 1) cs).map fun found => (.array found.1, found.2)
    | '\x7b' :: cs =>
      if depth = 0 then none
      else
        match skipSpace cs with
        | '\x7d' :: cs => some (.object [], cs)
        | cs => (scanMembers? fuel (depth - 1) cs).map fun found => (.object found.1, found.2)
    | c :: cs =>
      if c = 'n' then (expect? ['u', 'l', 'l'] cs).map fun cs => (.null, cs)
      else if c = 't' then (expect? ['r', 'u', 'e'] cs).map fun cs => (.bool true, cs)
      else if c = 'f' then (expect? ['a', 'l', 's', 'e'] cs).map fun cs => (.bool false, cs)
      else (scanNumber? (c :: cs)).map fun found => (.number found.1, found.2)

/-- One or more items with commas between them, up to the closing bracket. -/
def scanItems? (fuel depth : Nat) (cs : List Char) : Option (List Draft × List Char) :=
  match fuel with
  | 0 => none
  | fuel + 1 =>
    match scanValue? fuel depth cs with
    | none => none
    | some (item, cs) =>
      match skipSpace cs with
      | ',' :: cs => (scanItems? fuel depth cs).map fun found => (item :: found.1, found.2)
      | ']' :: cs => some ([item], cs)
      | _ => none

/-- One or more members with commas between them, up to the closing brace. -/
def scanMembers? (fuel depth : Nat) (cs : List Char) :
    Option (List (List StringPart × Draft) × List Char) :=
  match fuel with
  | 0 => none
  | fuel + 1 =>
    match scanKey? cs with
    | none => none
    | some (key, cs) =>
      match scanValue? fuel depth cs with
      | none => none
      | some (value, cs) =>
        match skipSpace cs with
        | ',' :: cs =>
          (scanMembers? fuel depth cs).map fun found => ((key, value) :: found.1, found.2)
        | '\x7d' :: cs => some ([(key, value)], cs)
        | _ => none

end

/-- The draft of a whole text, with at most `depth` arrays and objects inside one another. -/
def ofChars? (depth : Nat) (cs : List Char) : Option Draft :=
  match scanValue? (2 * cs.length + 2) depth cs with
  | some (draft, rest) => if (skipSpace rest).isEmpty then some draft else none
  | none => none

end Draft

end NearCache
