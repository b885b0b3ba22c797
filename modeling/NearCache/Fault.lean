import NearCache.Member

/-!
Faults: failures that stop an operation on the spot. What the operation changed before the fault
stays changed, so a function that can fault returns its state beside the fault.
-/

namespace NearCache

/-- Why an operation was stopped. -/
inductive Fault
  /-- A distance between two sequence numbers is larger than every sequence number. -/
  | subtractOverflow
  /-- A sum of two counters is larger than every counter. -/
  | addOverflow
  /-- A member broke down while it answered. -/
  | memberBrokeDown (member : MemberAddress)
deriving DecidableEq, Repr

namespace Fault

/-- The text of a fault. -/
def message : Fault → String
  | .subtractOverflow => "attempt to subtract with overflow"
  | .addOverflow => "attempt to add with overflow"
  | .memberBrokeDown member => "mock member " ++ member.text ++ " panicked"

end Fault

/-- The state in which a computation ended, and its result unless a fault stopped it. -/
abbrev Attempt (σ α : Type) := σ × Except Fault α

end NearCache
