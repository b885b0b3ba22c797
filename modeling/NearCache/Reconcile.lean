import NearCache.Cache

/-!
Applying what members report. A first report seeds a cache that starts to track its partitions; a
report of an anti-entropy round repairs caches that do so already. Sources hold for every cache,
sequence numbers only for the cache under whose name they are reported.
-/

namespace NearCache

namespace Tracker

/-- Applies a first report to the cache of this name. -/
def seed (t : Tracker) (name : String) (report : MemberReport) : Tracker :=
  report.sequences.foldl
    (fun t named => if named.1 = name then t.seedSequences named.2 else t)
    (t.seedSources report.sources)

/-- Compares every partition with its reported source. -/
def repairSources (t : Tracker) (sources : List (PartitionId × SourceId)) : Tracker :=
  sources.foldl (fun t p => (t.repairSource p.1 p.2).1) t

/-- Compares partitions with their reported sequence numbers in order, up to the first fault. -/
def repairSequences (t : Tracker) : List (PartitionId × Sequence) → Attempt Tracker Unit
  | [] => (t, .ok ())
  | p :: rest =>
    match t.repairSequence p.1 p.2 true with
    | .ok repaired => repaired.1.repairSequences rest
    | .error fault => (t, .error fault)

end Tracker

/-- Applies first reports to a cache, in order. -/
def Cache.seed (c : Cache) (reports : List MemberReport) : Cache :=
  c.withTracker (reports.foldl (fun t report => t.seed c.name report) c.tracker)

/-- Compares a cache with the reported sources. -/
def Cache.repairSources (c : Cache) (sources : List (PartitionId × SourceId)) : Cache :=
  c.withTracker (c.tracker.repairSources sources)

/-- Compares a cache with sequence numbers reported under its name. -/
def Cache.repairSequences (c : Cache) (sequences : List (PartitionId × Sequence)) :
    Attempt Cache Unit :=
  let repaired := c.tracker.repairSequences sequences
  (c.withTracker repaired.1, repaired.2)

/-- Applies sequence numbers to the first cache of the name under which they are reported. -/
def repairNamed (name : String) (sequences : List (PartitionId × Sequence)) :
    List Cache → Attempt (List Cache) Unit
  | [] => ([], .ok ())
  | c :: rest =>
    if c.name = name then
      let repaired := c.repairSequences sequences
      (repaired.1 :: rest, repaired.2)
    else
      let others := repairNamed name sequences rest
      (c :: others.1, others.2)

/-- Applies all reported sequence numbers to the caches, up to the first fault. -/
def repairAllNamed (caches : List Cache) :
    List (String × List (PartitionId × Sequence)) → Attempt (List Cache) Unit
  | [] => (caches, .ok ())
  | named :: rest =>
    match repairNamed named.1 named.2 caches with
    | (caches, .ok ()) => repairAllNamed caches rest
    | (caches, .error fault) => (caches, .error fault)

/-- Applies one report of an anti-entropy round to the coherent caches: first the sources to every
cache, then the sequence numbers by name. -/
def applyReport (caches : List Cache) (report : MemberReport) : Attempt (List Cache) Unit :=
  repairAllNamed (caches.map (·.repairSources report.sources)) report.sequences

/-- Applies the reports of an anti-entropy round in order, up to the first fault. -/
def applyReports (caches : List Cache) : List MemberReport → Attempt (List Cache) Unit
  | [] => (caches, .ok ())
  | report :: rest =>
    match applyReport caches report with
    | (caches, .ok ()) => applyReports caches rest
    | (caches, .error fault) => (caches, .error fault)

end NearCache
