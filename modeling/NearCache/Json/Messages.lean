import NearCache.Json.Form
import NearCache.Member
import NearCache.Message

/-!
JSON forms of what is exchanged with the cluster: bytes, versions, addresses, event shapes and
reports of members.
-/

namespace NearCache

instance : JsonForm Data where
  toJson d := .array (d.bytes.map fun b => .int b.toNat)
  ofDraft? d := (d.list? (Draft.nat? 256)).map fun ns => ⟨ns.map UInt8.ofNat⟩

instance : JsonForm ServerVersion where
  toJson v := .object [("major", .int v.major.toNat), ("minor", .int v.minor.toNat),
    ("patch", .int v.patch.toNat)]
  ofDraft? d := do
    match ← d.fields? ["major", "minor", "patch"] with
    | [major, minor, patch] =>
      let major ← Draft.required? (Draft.nat? UInt16.size) major
      let minor ← Draft.required? (Draft.nat? UInt16.size) minor
      let patch ← Draft.required? (Draft.nat? UInt16.size) patch
      return ⟨.ofNat major, .ofNat minor, .ofNat patch⟩
    | _ => none

instance : JsonForm MemberAddress where
  toJson a := .object [("host", .string a.host), ("port", .int a.port.toNat)]
  ofDraft? d := do
    match ← d.fields? ["host", "port"] with
    | [host, port] =>
      let host ← Draft.required? Draft.text? host
      let port ← Draft.required? (Draft.nat? UInt16.size) port
      return ⟨host, .ofNat port⟩
    | _ => none

instance : JsonForm EventShape where
  toJson s := .string s.name
  ofDraft? d := do
    match ← d.variant? with
    | "legacy" => return .legacy
    | "repairable" => return .repairable
    | _ => none

namespace MemberReport

/-- The range of partition numbers. -/
def partition? : Draft → Option PartitionId :=
  Draft.int? Int32.minValue.toInt Int32.maxValue.toInt

/-- The range of sequence numbers. -/
def sequence? : Draft → Option Sequence :=
  Draft.int? Int64.minValue.toInt maxSequence

/-- A source id as text. -/
def source? (d : Draft) : Option SourceId :=
  d.text?.bind readUuid?

end MemberReport

instance : JsonForm MemberReport where
  toJson r := .object
    [("partition_sources",
        .array (r.sources.map fun p => .array [.int p.1, .string (uuidText p.2)])),
      ("name_partition_sequences",
        .array (r.sequences.map fun n =>
          .array [.string n.1, .array (n.2.map fun p => .array [.int p.1, .int p.2])]))]
  ofDraft? d := do
    match ← d.fields? ["partition_sources", "name_partition_sequences"] with
    | [sources, sequences] =>
      let sources ← Draft.required?
        (Draft.list? (Draft.pair? MemberReport.partition? MemberReport.source?)) sources
      let sequences ← Draft.required?
        (Draft.list? (Draft.pair? Draft.text?
          (Draft.list? (Draft.pair? MemberReport.partition? MemberReport.sequence?)))) sequences
      return ⟨sources, sequences⟩
    | _ => none

end NearCache
