import NearCache.Fault
import NearCache.Identity

/-!
What is known of one partition's invalidation stream. A missed invalidation shows only as a jump in
the sequence numbers, so the longest run of skipped numbers is kept until it is repaired. Repair
raises the floor: every record stamped below the floor is stale.
-/

namespace NearCache

/-- Knowledge of one partition's stream. -/
structure PartitionState where
  /-- The node taken to produce the stream. -/
  source : SourceId
  /-- The highest sequence number known of it. -/
  latest : Sequence
  /-- Records stamped below this number are stale. -/
  floor : Sequence
  /-- The longest run of numbers skipped since the floor was last raised. -/
  missed : Int
deriving DecidableEq, Repr, Inhabited

namespace PartitionState

/-- Before anything is known. -/
def initial : PartitionState := ⟨0, 0, 0, 0⟩

/-- Adopts another source. Nothing known of the sequences of the old one carries over. -/
def rotate (source : SourceId) (sequence : Sequence) : PartitionState :=
  ⟨source, sequence, sequence, 0⟩

/-- The numbers between `latest` and `next` that were not seen. An event at `next` proves that
`next` itself arrived; a member's report does not. -/
def skipped (latest next : Sequence) (reported : Bool) : Int :=
  if reported then next - latest else next - latest - 1

/-- Raises the latest number to `next` and records the run that was skipped. A number that is not
new changes nothing. -/
def advance (m : PartitionState) (next : Sequence) (reported : Bool) : Except Fault PartitionState :=
  if next ≤ m.latest then .ok m
  else if next - m.latest > maxSequence then .error .subtractOverflow
  else .ok { m with latest := next, missed := max m.missed (skipped m.latest next reported) }

/-- Applies the position that an event announces. -/
def observe (m : PartitionState) (source : SourceId) (sequence : Sequence) :
    Except Fault PartitionState :=
  if m.source = source then m.advance sequence false else .ok (rotate source sequence)

/-- Applies the current source from a first report: another source starts over at zero. -/
def adoptSource (m : PartitionState) (source : SourceId) : PartitionState :=
  if m.source = source then m else rotate source 0

/-- Applies a sequence number from a first report, which may be older than what events have told
since it was taken. -/
def seedSequence (m : PartitionState) (sequence : Sequence) : PartitionState :=
  if m.latest ≤ sequence then { m with latest := sequence, floor := sequence, missed := 0 }
  else { m with floor := max m.floor sequence }

/-- Whether more numbers in a row were missed than tolerated. -/
def exceeds (m : PartitionState) (tolerance : Int) : Bool :=
  m.missed > tolerance

/-- Raises the floor to the latest number where too many numbers were missed. -/
def repairGap (m : PartitionState) (tolerance : Int) : PartitionState :=
  if m.exceeds tolerance then { m with floor := m.latest, missed := 0 } else m

/-- Whether a record stamped with this source and number is stale. -/
def isStale (m : PartitionState) (source : SourceId) (sequence : Sequence) : Bool :=
  source ≠ m.source || sequence < m.floor

end PartitionState

end NearCache
