/-!
Decimal integers. A number is read from one or more ASCII digits after an optional sign, leading
zeros included, and is accepted only inside the bounds that the reader was given.
-/

namespace NearCache

/-- The value of an ASCII digit. -/
def digitValue? (c : Char) : Option Nat :=
  if '0' ≤ c ∧ c ≤ '9' then some (c.toNat - '0'.toNat) else none

/-- The number that a list of decimal digits writes, most significant digit first. -/
def ofDigits (ds : List Nat) : Nat :=
  ds.foldl (fun n d => 10 * n + d) 0

/-- One or more ASCII digits and nothing else. -/
def readDigits? (cs : List Char) : Option Nat :=
  if cs.isEmpty then none else (cs.mapM digitValue?).map ofDigits

/-- A natural number up to `max`, with an optional plus sign. -/
def readNat? (max : Nat) (cs : List Char) : Option Nat :=
  let digits := match cs with
    | '+' :: rest => rest
    | _ => cs
  (readDigits? digits).filter (· ≤ max)

/-- An integer from `min` to `max`, with an optional sign. -/
def readInt? (min max : Int) (cs : List Char) : Option Int :=
  let magnitude := match cs with
    | '-' :: rest => (readDigits? rest).map fun n => -(n : Int)
    | '+' :: rest => (readDigits? rest).map fun n => (n : Int)
    | _ => (readDigits? cs).map fun n => (n : Int)
  magnitude.filter fun n => min ≤ n ∧ n ≤ max

/-- The decimal digits of a natural number, without leading zeros. -/
def natText (n : Nat) : String :=
  Nat.repr n

/-- A minus sign where needed, then the decimal digits of the magnitude. -/
def intText (n : Int) : String :=
  if n < 0 then "-" ++ natText n.natAbs else natText n.natAbs

end NearCache
