import NearCache.Text.Decimal

/-!
Durations: whole seconds and the nanoseconds beyond them. The shown form takes the largest unit of
seconds, milliseconds, microseconds and nanoseconds that leaves a whole part, and as many decimals
as the rest needs.
-/

namespace NearCache

/-- A length of time, at most `2 ^ 64` seconds. -/
structure Duration where
  secs : UInt64
  nanos : Fin 1000000000
deriving DecidableEq, Repr, Inhabited

/-- The longest pause, in milliseconds: thirty years of 365 days. Deadlines may lie further ahead. -/
def longestPause : Nat := 30 * 365 * 24 * 60 * 60 * 1000

/-- What a pause of some milliseconds is cut to. -/
def boundedPause (millis : Nat) : Nat :=
  min millis longestPause

namespace Duration

/-- A whole number of seconds. -/
def ofSecs (secs : UInt64) : Duration :=
  ⟨secs, 0⟩

/-- A whole number of milliseconds. -/
def ofMillis (millis : UInt64) : Duration :=
  ⟨millis / 1000, Fin.ofNat 1000000000 (millis.toNat % 1000 * 1000000)⟩

/-- Seconds and nanoseconds, where a full second of nanoseconds is carried over. There is no such
duration if the seconds run past their range. -/
def ofParts? (secs : UInt64) (nanos : Nat) : Option Duration :=
  let total := secs.toNat + nanos / 1000000000
  if total < UInt64.size then some ⟨UInt64.ofNat total, Fin.ofNat 1000000000 nanos⟩ else none

/-- The length in nanoseconds. -/
def toNanos (d : Duration) : Nat :=
  d.secs.toNat * 1000000000 + d.nanos.val

/-- The length in milliseconds, rounded up: what a clock that ticks every millisecond waits. -/
def toTicks (d : Duration) : Nat :=
  (d.toNanos + 999999) / 1000000

/-- Whether the length is zero. -/
def isZero (d : Duration) : Bool :=
  d.secs == 0 && d.nanos == 0

/-- The decimals of a fraction of `10 ^ width` parts, without the zeros at the end. -/
def fractionText (width part : Nat) : String :=
  let digits := (Nat.toDigits 10 (Nat.pow 10 width + part)).drop 1
  let kept := (digits.reverse.dropWhile (· = '0')).reverse
  if kept.isEmpty then "" else "." ++ String.ofList kept

/-- The diagnostic text. -/
def text (d : Duration) : String :=
  let n := d.nanos.val
  if d.secs > 0 then natText d.secs.toNat ++ fractionText 9 n ++ "s"
  else if n ≥ 1000000 then natText (n / 1000000) ++ fractionText 6 (n % 1000000) ++ "ms"
  else if n ≥ 1000 then natText (n / 1000) ++ fractionText 3 (n % 1000) ++ "µs"
  else natText n ++ "ns"

end Duration

end NearCache
