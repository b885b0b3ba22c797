import NearCache.Cache
import NearCache.Proofs.Json.Forms
import NearCache.Proofs.Store.Effects

/-!
Nothing is lost on the way into a text and back: neither of the data types that are configured or
exchanged, nor of the values that a cache holds as objects.
-/

namespace NearCache

/-- A cache of objects that takes bytes holds the value that they decode to. -/
theorem Cache.state?_put_of_decode {c : Cache} {key bytes : Data} {partition : PartitionId}
    {now : Instant} {draw : Nat} {j : Json} (hFormat : c.config.format = .object)
    (hDecode : Json.decode bytes = .ok j)
    (hTaken : (c.put key bytes partition now draw).2 = .ok true) :
    (c.put key bytes partition now draw).1.store.slots.state? key =
      some (.ready (.create key (.object j) (c.tracker.stamp partition).2 now)) := by
  have hConvert : c.convert bytes = .ok (.object j) := by
    rw [convert, hFormat, hDecode]
    rfl
  simp only [put, hConvert, Except.ok.injEq] at hTaken ⊢
  rw [withStore, Store.state?_put, if_pos rfl, if_pos hTaken]

open JsonForm

/-- What is serialized is read back as it was. The text of bytes, of a configuration, of a catalog built
from configurations, of coherence settings, of a version, an address, a report whose numbers are in the
range of their types, a policy, a format and a shape is read as that value. A value without doubles that
nests no deeper than can be read is what the bytes that encode it decode to, so a cache of objects that
took the bytes under a key holds the value there. -/
theorem serialization_roundtrip :
    (∀ d : Data, ofText? (toText d) = some d) ∧
    (∀ c : CacheConfig, ofText? (toText c) = some c) ∧
    (∀ configs : List CacheConfig,
      ofText? (toText (ConfigCatalog.ofList configs)) = some (ConfigCatalog.ofList configs)) ∧
    (∀ c : CoherenceConfig, ofText? (toText c) = some c) ∧
    (∀ v : ServerVersion, ofText? (toText v) = some v) ∧
    (∀ a : MemberAddress, ofText? (toText a) = some a) ∧
    (∀ report : MemberReport, report.Representable → ofText? (toText report) = some report) ∧
    (∀ p : EvictionPolicy, ofText? (toText p) = some p) ∧
    (∀ f : InMemoryFormat, ofText? (toText f) = some f) ∧
    (∀ s : EventShape, ofText? (toText s) = some s) ∧
    ∀ j : Json, j.Canonical → j.Nests Json.maxDepth →
      Json.decode (Json.encode j) = .ok j ∧
      ∀ (c : Cache) (key : Data) (partition : PartitionId) (now : Instant) (draw : Nat),
        let written := c.put key (Json.encode j) partition now draw
        c.config.format = .object → written.2 = .ok true →
          written.1.store.slots.state? key =
            some (.ready (.create key (.object j) (c.tracker.stamp partition).2 now)) := by
  refine ⟨fun d => (kept_data d).ofText?_toText, fun c => (kept_config c).ofText?_toText,
    fun configs => (kept_catalog _).ofText?_toText, fun c => (kept_coherence c).ofText?_toText,
    fun v => (kept_version v).ofText?_toText, fun a => (kept_address a).ofText?_toText,
    fun _ h => (kept_report h).ofText?_toText, fun p => (kept_eviction p).ofText?_toText,
    fun f => (kept_format f).ofText?_toText, fun s => (kept_shape s).ofText?_toText, ?_⟩
  intro j hCanonical hNests
  have hDecode := Json.decode_encode hCanonical hNests
  exact ⟨hDecode, fun c key partition now draw hFormat hTaken =>
    Cache.state?_put_of_decode hFormat hDecode hTaken⟩

/-- A report with numbers at the ends of their ranges, and an object with an escaped text, a number at
the end of its range and a list, written into an empty cache of objects. -/
theorem serialization_roundtrip_at_limits :
    let report : MemberReport :=
      ⟨[(2147483647, 255)], [("orders", [(-2147483648, -9223372036854775808)])]⟩
    let j : Json := .object
      [("id", .int 18446744073709551615), ("notes", .array [.string "a \"b\"\n", .null])]
    let c := Cache.create "orders" { CacheConfig.ofName "orders" with format := .object } .default
    ofText? (toText report) = some report ∧ Json.decode (Json.encode j) = .ok j ∧
      (c.put ⟨[7]⟩ (Json.encode j) 3 0 0).1.store.slots.state? ⟨[7]⟩ =
        some (.ready (.create ⟨[7]⟩ (.object j) ⟨3, 0, 0⟩ 0)) := by
  intro report j c
  obtain ⟨-, -, -, -, -, -, hReport, -, -, -, hJson⟩ := serialization_roundtrip
  have hRepresentable : report.Representable := ⟨by decide, by decide⟩
  have hCanonical : j.Canonical := by
    refine .object _ (by decide) ?_
    simp only [List.forall_mem_cons]
    refine ⟨.int _ (by decide) (by decide), .array _ ?_, nofun⟩
    simp only [List.forall_mem_cons]
    exact ⟨.string _, .null, nofun⟩
  have hNests : j.Nests Json.maxDepth := by
    refine .object 126 _ ?_
    simp only [List.forall_mem_cons]
    refine ⟨.int _ _, .array 125 _ ?_, nofun⟩
    simp only [List.forall_mem_cons]
    exact ⟨.string _ _, .null _, nofun⟩
  obtain ⟨hDecode, hHeld⟩ := hJson j hCanonical hNests
  refine ⟨hReport report hRepresentable, hDecode, hHeld c ⟨[7]⟩ 3 0 0 rfl ?_⟩
  have hConvert : c.convert (Json.encode j) = .ok (.object j) := by
    rw [Cache.convert, hDecode]
    rfl
  rw [Cache.put, hConvert]
  rfl

end NearCache
