import Std.Data.ExtTreeMap.Lemmas
import NearCache.Text.Hex
import NearCache.Text.Quoted
import NearCache.Text.Decimal

/-!
The names of things: opaque keys and values, the sources that produce invalidation streams, and
positions in such a stream.
-/

namespace NearCache

/-- Opaque serialized bytes, used for keys and for values. They are ordered byte by byte. -/
structure Data where
  bytes : List UInt8
deriving DecidableEq, Repr, Inhabited

namespace Data

instance : Ord Data := ⟨compareOn Data.bytes⟩

instance : Std.TransOrd Data :=
  inferInstanceAs (Std.TransCmp (compareOn Data.bytes))

instance : Std.LawfulEqOrd Data where
  eq_of_compare {a b} h := by
    have : compare a.bytes b.bytes = .eq := h
    cases a; cases b
    exact congrArg Data.mk (Std.LawfulEqOrd.eq_of_compare this)

/-- The bytes of a text in UTF-8. -/
def ofString (s : String) : Data :=
  ⟨s.toUTF8.toList⟩

/-- The text that the bytes hold, if they are valid UTF-8. -/
def toString? (d : Data) : Option String :=
  String.fromUTF8? ⟨d.bytes.toArray⟩

/-- The number of bytes. -/
def size (d : Data) : Nat :=
  d.bytes.length

/-- The diagnostic text: the quoted text where the bytes hold one, else their number. -/
def text (d : Data) : String :=
  match d.toString? with
  | some s => "Data(" ++ quoted s ++ ")"
  | none => "Data(" ++ natText d.size ++ " bytes)"

end Data

/-- Identity of the node that currently produces a partition's invalidation stream. -/
abbrev SourceId := BitVec 128

/-- Number of a partition. Invalidations are sequenced per partition. -/
abbrev PartitionId := Int

/-- Number of an invalidation within one partition and source. -/
abbrev Sequence := Int

/-- The largest sequence number and the largest distance between two of them. -/
def maxSequence : Sequence := 9223372036854775807

/-- A place in a partition's invalidation stream: what a record is stamped with, and where an event
says that it stands. -/
structure Position where
  partition : PartitionId
  source : SourceId
  sequence : Sequence
deriving DecidableEq, Repr, Inhabited

/-- An instant of the wall clock, in nanoseconds. -/
abbrev Instant := Int

end NearCache
