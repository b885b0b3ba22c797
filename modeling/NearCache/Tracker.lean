import NearCache.Partition

/-!
The coherence tracker of a cache: the knowledge of every partition, created on first use, and the
number of missed invalidations in a row that it tolerates. Partitions do not influence each other.
-/

namespace NearCache

/-- Knowledge of all partitions of one cache. -/
structure Tracker where
  tolerance : Int
  partitions : Std.ExtTreeMap PartitionId PartitionState
deriving DecidableEq

namespace Tracker

/-- A tracker that knows of no partition. -/
def empty (tolerance : Int) : Tracker := ⟨tolerance, ∅⟩

/-- What is known of a partition; of one never touched, nothing. -/
def state (t : Tracker) (p : PartitionId) : PartitionState :=
  t.partitions[p]?.getD .initial

/-- Replaces what is known of a partition. -/
def setState (t : Tracker) (p : PartitionId) (m : PartitionState) : Tracker :=
  { t with partitions := t.partitions.insert p m }

/-- Makes a partition known, with nothing known of it yet. -/
def touch (t : Tracker) (p : PartitionId) : Tracker :=
  { t with partitions := t.partitions.insertIfNew p .initial }

/-- The position that a record written now is stamped with. -/
def stamp (t : Tracker) (p : PartitionId) : Tracker × Position :=
  (t.touch p, ⟨p, (t.state p).source, (t.state p).latest⟩)

/-- Whether a record with this stamp must not be read any more. Nothing is stale in a partition that
was never touched. -/
def isStale (t : Tracker) (s : Position) : Bool :=
  match t.partitions[s.partition]? with
  | some m => m.isStale s.source s.sequence
  | none => false

/-- Applies the position that an event announces. -/
def observe (t : Tracker) (s : Position) : Except Fault Tracker :=
  ((t.state s.partition).observe s.source s.sequence).map (t.setState s.partition)

/-- Applies several positions in order, up to the first fault. -/
def observeAll (t : Tracker) : List Position → Attempt Tracker Unit
  | [] => (t, .ok ())
  | s :: rest =>
    match t.observe s with
    | .ok t' => t'.observeAll rest
    | .error fault => (t, .error fault)

/-- The number of partitions that missed more than is tolerated. -/
def gapCount (t : Tracker) : Nat :=
  t.partitions.toList.countP fun p => p.2.exceeds t.tolerance

/-- Raises the floor of every partition that missed more than is tolerated, and counts them. -/
def repairGaps (t : Tracker) : Tracker × Nat :=
  ({ t with partitions := t.partitions.map fun _ m => m.repairGap t.tolerance }, t.gapCount)

/-- Applies the sources of a first report. -/
def seedSources (t : Tracker) (sources : List (PartitionId × SourceId)) : Tracker :=
  sources.foldl (fun t p => t.setState p.1 ((t.state p.1).adoptSource p.2)) t

/-- Applies the sequence numbers of a first report. -/
def seedSequences (t : Tracker) (sequences : List (PartitionId × Sequence)) : Tracker :=
  sequences.foldl (fun t p => t.setState p.1 ((t.state p.1).seedSequence p.2)) t

/-- Compares a partition with its source as reported, adopts that source if it differs, and says
whether it did. -/
def repairSource (t : Tracker) (p : PartitionId) (source : SourceId) : Tracker × Bool :=
  (t.setState p ((t.state p).adoptSource source), (t.state p).source ≠ source)

/-- Compares a partition with its latest number as told, raises its own if that is lower, and says
whether it was. -/
def repairSequence (t : Tracker) (p : PartitionId) (sequence : Sequence) (reported : Bool) :
    Except Fault (Tracker × Bool) :=
  ((t.state p).advance sequence reported).map fun m =>
    (t.setState p m, decide ((t.state p).latest < sequence))

/-- Forgets everything. -/
def reset (t : Tracker) : Tracker :=
  { t with partitions := ∅ }

end Tracker

end NearCache
