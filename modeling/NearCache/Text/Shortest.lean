import NearCache.Text.Decimal

/-!
The shortest decimal of a binary floating-point number. A double stands for `m * 2 ^ q`; the reals
that round to it form an interval around it, whose ends belong to it when `m` is even. On the grid of
decimals with one digit, two digits and so on, the first grid that meets the interval wins, and of
its points the one nearest to the number.
-/

namespace NearCache

/-- A finite nonzero double without its sign: the significand, the exponent of two, and whether the
gap below it is half the gap above. -/
structure BinaryParts where
  m : Nat
  q : Int
  narrowBelow : Bool
deriving DecidableEq, Repr

namespace BinaryParts

/-- Significand and exponent out of the bits of a double, the sign aside. -/
def ofBits (bits : UInt64) : BinaryParts :=
  let fraction := bits.toNat % Nat.pow 2 52
  let biased := bits.toNat / Nat.pow 2 52 % Nat.pow 2 11
  if biased = 0 then ⟨fraction, -1074, false⟩
  else ⟨fraction + Nat.pow 2 52, Int.ofNat biased - 1075, fraction == 0 && biased > 1⟩

/-- Four times the lower end of the interval, in units of `2 ^ q`. -/
def lower (b : BinaryParts) : Nat :=
  if b.narrowBelow then 4 * b.m - 1 else 4 * b.m - 2

/-- Four times the upper end of the interval, in units of `2 ^ q`. -/
def upper (b : BinaryParts) : Nat :=
  4 * b.m + 2

/-- A decimal `c * 10 ^ k` and `n * 2 ^ (q - 2)`, both scaled to a common unit. -/
def scaled (b : BinaryParts) (c : Nat) (k : Int) (n : Nat) : Nat × Nat :=
  (c * Nat.pow 10 k.toNat * Nat.pow 2 (2 - b.q).toNat,
    n * Nat.pow 2 (b.q - 2).toNat * Nat.pow 10 (-k).toNat)

/-- Whether `c * 10 ^ k` lies in the interval. -/
def admits (b : BinaryParts) (c : Nat) (k : Int) : Bool :=
  let low := b.scaled c k b.lower
  let high := b.scaled c k b.upper
  if b.m % 2 = 0 then low.2 ≤ low.1 && high.1 ≤ high.2 else low.2 < low.1 && high.1 < high.2

/-- The largest grid point not above the number, for the grid of step `10 ^ k`. -/
def below (b : BinaryParts) (k : Int) : Nat :=
  let unit := b.scaled 1 k (4 * b.m)
  unit.2 / unit.1

/-- Whether the point `c` of the grid is at least as near to the number as `c + 1`; a tie goes to the
even one. -/
def nearerBelow (b : BinaryParts) (c : Nat) (k : Int) : Bool :=
  let middle := b.scaled (2 * c + 1) k (8 * b.m)
  middle.2 < middle.1 || (middle.2 = middle.1 && c % 2 = 0)

/-- A point of the grid of step `10 ^ k` in the interval, the nearest if there are two. -/
def pick? (b : BinaryParts) (k : Int) : Option Nat :=
  let c := b.below k
  match b.admits c k, b.admits (c + 1) k with
  | true, true => some (if b.nearerBelow c k then c else c + 1)
  | true, false => some c
  | false, true => some (c + 1)
  | false, false => none

/-- The exponent of the leading decimal digit. -/
def leading (b : BinaryParts) : Int :=
  match (List.range 640).find? fun (i : Nat) => 0 < b.below (310 - Int.ofNat i) with
  | some i => 310 - Int.ofNat i
  | none => -324

/-- The decimal with the fewest digits that lies in the interval: its digits as a number, and the
exponent of ten of the last one. -/
def shortest (b : BinaryParts) : Nat × Int :=
  let top := b.leading
  match (List.range 17).findSome? fun (n : Nat) =>
      (b.pick? (top - Int.ofNat n)).map fun c => (c, top - Int.ofNat n) with
  | some found => found
  | none => (b.below (top - 17), top - 17)

end BinaryParts

/-- The digits of a decimal without the zeros at its end, and the exponent of ten of the last digit
that is left. -/
def trimZeros (c : Nat) (k : Int) : List Char × Int :=
  let digits := Nat.toDigits 10 c
  let kept := (digits.reverse.dropWhile (· = '0')).reverse
  (kept, k + ((digits.length - kept.length : Nat) : Int))

/-- Digits and an exponent as text. The point stands inside or at the end of up to sixteen places,
or after up to five zeros; beyond that the exponent is written after the letter e, with its sign. -/
def placePoint (digits : List Char) (k : Int) : List Char :=
  let point := digits.length + k
  if 0 ≤ k ∧ point ≤ 16 then digits ++ List.replicate k.toNat '0' ++ ['.', '0']
  else if 0 < point ∧ point ≤ 16 then digits.take point.toNat ++ ['.'] ++ digits.drop point.toNat
  else if -5 < point ∧ point ≤ 0 then ['0', '.'] ++ List.replicate (-point).toNat '0' ++ digits
  else
    let exponent := 'e' :: (if point > 0 then ['+'] else []) ++ (intText (point - 1)).toList
    match digits with
    | [d] => d :: exponent
    | d :: rest => d :: '.' :: rest ++ exponent
    | [] => exponent

/-- The shortest text of a finite double, given by its bits. -/
def shortestText (bits : UInt64) : List Char :=
  let b := BinaryParts.ofBits bits
  let magnitude :=
    if b.m = 0 then ['0', '.', '0']
    else
      let (digits, k) := trimZeros b.shortest.1 b.shortest.2
      placePoint digits k
  if bits.toNat / Nat.pow 2 63 = 1 then '-' :: magnitude else magnitude

end NearCache
