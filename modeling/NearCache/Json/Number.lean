import NearCache.Json.Basic
import NearCache.Json.Draft

/-!
The value of a written number. An integer that 64 bits hold is that integer. Any other number is a
double: its digits are gathered into a 64-bit significand, which leaves out what does not fit, and
the significand is scaled by a power of ten.
-/

namespace NearCache

/-- Digits gathered into 64 bits, the power of ten to scale them by, and whether a digit was left
out. -/
structure Significand where
  value : Nat
  exponent : Int
  full : Bool
deriving DecidableEq, Repr

namespace Significand

/-- Whether one more digit fits. -/
def takes (s : Significand) (d : Nat) : Bool :=
  !s.full && 10 * s.value + d < UInt64.size

/-- One more digit before the point: if it is left out, the others count ten times as much. -/
def pushWhole (s : Significand) (d : Nat) : Significand :=
  if s.takes d then { s with value := 10 * s.value + d }
  else { s with exponent := s.exponent + 1, full := true }

/-- One more digit after the point. -/
def pushFraction (s : Significand) (d : Nat) : Significand :=
  if s.takes d then { s with value := 10 * s.value + d, exponent := s.exponent - 1 }
  else { s with full := true }

/-- The digits of a number before and after the point. -/
def ofDigitLists (whole fraction : List Nat) : Significand :=
  let before := whole.foldl pushWhole ⟨0, 0, false⟩
  fraction.foldl pushFraction { before with full := false }

end Significand

/-- The double nearest to a power of ten. -/
def powerOfTen (e : Nat) : Float :=
  Float.ofScientific 1 false e

/-- A double times a power of ten, unless it leaves the range. -/
def scaleUp? (f : Float) (e : Nat) : Option Float :=
  if e ≤ 308 then
    let product := f * powerOfTen e
    if product.isInf then none else some product
  else if f == 0.0 then some f
  else none

/-- A double divided by a power of ten, in steps of at most `10 ^ 308`. Three steps take every
64-bit number to zero. -/
def scaleDown (steps : Nat) (f : Float) (e : Nat) : Float :=
  match steps with
  | 0 => f
  | steps + 1 =>
    if e ≤ 308 then f / powerOfTen e
    else if f == 0.0 then f
    else scaleDown steps (f / powerOfTen 308) (e - 308)

namespace NumberLiteral

/-- Whether the number is written without a fraction and without an exponent. -/
def isWhole (n : NumberLiteral) : Bool :=
  n.fraction.isEmpty && n.exponent.isNone

/-- The integer that is written, if 64 bits hold it. Zero after a minus sign is none. -/
def integer? (n : NumberLiteral) : Option Int :=
  let magnitude := ofDigits n.whole
  if !n.isWhole then none
  else if n.negative then
    if 0 < magnitude ∧ magnitude ≤ UInt64.size / 2 then some (-(magnitude : Int)) else none
  else if magnitude < UInt64.size then some magnitude
  else none

/-- The exponent that is written, zero if there is none. -/
def exponentValue (n : NumberLiteral) : Int :=
  match n.exponent with
  | none => 0
  | some (true, digits) => -(ofDigits digits : Int)
  | some (false, digits) => ofDigits digits

/-- The double that is written, unless it is too large. -/
def double? (n : NumberLiteral) : Option Float :=
  let s := Significand.ofDigitLists n.whole n.fraction
  let exponent := s.exponent + n.exponentValue
  let f := (UInt64.ofNat s.value).toFloat
  let scaled :=
    if 0 ≤ exponent then scaleUp? f exponent.toNat
    else some (scaleDown 4 f (-exponent).toNat)
  scaled.map fun f => if n.negative then -f else f

/-- The value of the number, unless it is too large. -/
def value? (n : NumberLiteral) : Option Json :=
  match n.integer? with
  | some i => some (.int i)
  | none => n.double?.map fun f => .real ⟨f.toBits⟩

end NumberLiteral

end NearCache
