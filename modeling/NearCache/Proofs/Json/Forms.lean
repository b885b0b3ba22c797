import Mathlib.Data.List.Nodup
import NearCache.Json.Configuration
import NearCache.Json.Messages
import NearCache.Proofs.Json.Value

/-!
What a data type is written as is read as the same value of the type. The members of an object are
found under their keys, whatever their order, and each field is read as it is written.
-/

namespace NearCache

theorem mapM_eq_some_map {α β : Type} {f : α → Option β} {g : α → β} {xs : List α}
    (h : ∀ x ∈ xs, f x = some (g x)) : xs.mapM f = some (xs.map g) := by
  induction xs with
  | nil => rfl
  | cons x xs ih =>
      rw [List.forall_mem_cons] at h
      rw [List.mapM_cons, h.1, ih h.2]
      rfl

theorem Json.Nests.pair {n : Nat} {j k : Json} (hFirst : j.Nests n) (hSecond : k.Nests n) :
    (Json.array [j, k]).Nests (n + 1) :=
  .array n _ (by simp [hFirst, hSecond])

namespace Draft

section Fields

theorem members?_ofJson (members : List (String × Json)) :
    (ofJson (.object members)).members? = some (members.map fun m => (m.1, ofJson m.2)) := by
  rw [ofJson, members?, ofMembers_eq_map, List.mapM_map]
  apply mapM_eq_some_map
  intro m hm
  rw [Function.comp_apply, partsText?_parts, Option.map_some]

theorem filter_of_absent {members : List (String × Draft)} {key : String}
    (h : key ∉ members.map Prod.fst) : members.filter (·.1 = key) = [] := by
  rw [List.filter_eq_nil_iff]
  intro m hm hSame
  exact h (List.mem_map.mpr ⟨m, hm, of_decide_eq_true hSame⟩)

theorem single?_of_mem {members : List (String × Draft)} (h : (members.map Prod.fst).Nodup)
    {m : String × Draft} (hm : m ∈ members) : single? members m.1 = some (some m.2) := by
  obtain ⟨before, after, rfl⟩ := List.append_of_mem hm
  rw [List.map_append, List.map_cons, List.nodup_middle, List.nodup_cons, List.mem_append, not_or] at h
  obtain ⟨⟨hBefore, hAfter⟩, -⟩ := h
  rw [single?, List.filter_append, List.filter_cons_of_pos (by simp), filter_of_absent hBefore,
    filter_of_absent hAfter]
  rfl

section Named

variable {names : List String} {members : List (String × Json)}
  (hNames : members.map Prod.fst = names) (h : names.Nodup)

include hNames h

/-- The fields of a record are found in the order of their names. -/
theorem fields?_ofJson :
    (ofJson (.object members)).fields? names = some (members.map fun m => some (ofJson m.2)) := by
  subst hNames
  have hFields : (ofJson (.object members)).fields? (members.map Prod.fst) =
      (ofJson (.object members)).members?.bind fun found =>
        (members.map Prod.fst).mapM (single? found) := by
    rw [ofJson]
    rfl
  rw [hFields, members?_ofJson, Option.bind_some, List.mapM_map]
  apply mapM_eq_some_map
  intro m hm
  have hKeys : ((members.map fun m => (m.1, ofJson m.2)).map Prod.fst).Nodup := by
    rwa [List.map_map]
  exact single?_of_mem hKeys (List.mem_map.mpr ⟨m, hm, rfl⟩)

theorem closedFields?_ofJson :
    (ofJson (.object members)).closedFields? names =
      some (members.map fun m => some (ofJson m.2)) := by
  have hFields := fields?_ofJson hNames h
  have hAll : (members.map fun m => (m.1, ofJson m.2)).all (fun m => names.contains m.1) = true := by
    simp only [List.all_map, List.all_eq_true, Function.comp_apply, List.contains_iff_mem, ← hNames]
    exact fun m hm => List.mem_map.mpr ⟨m, hm, rfl⟩
  rw [closedFields?, members?_ofJson]
  simp only [hAll, if_true, hFields]

end Named

theorem int?_ofJson {min max n : Int} (hMin : min ≤ n) (hMax : n ≤ max) (hLow : -2 ^ 63 ≤ n)
    (hHigh : n < 2 ^ 64) : (ofJson (.int n)).int? min max = some n := by
  rw [ofJson, int?, NumberLiteral.integer?_ofInt hLow hHigh]
  simp [hMin, hMax]

theorem nat?_ofJson {bound n : Nat} (hLess : n < bound) (hBound : bound ≤ 2 ^ 64) :
    (ofJson (.int n)).nat? bound = some n := by
  rw [nat?, int?_ofJson (by omega) (by omega) (by omega) (by omega)]
  rfl

theorem bool?_ofJson (b : Bool) : (ofJson (.bool b)).bool? = some b := rfl

theorem text?_ofJson (s : String) : (ofJson (.string s)).text? = some s := by
  rw [ofJson, text?, partsText?_parts]

theorem variant?_ofJson (s : String) : (ofJson (.string s)).variant? = some s := by
  rw [ofJson, variant?, partsText?_parts]

theorem list?_ofJson {α β : Type} {read : Draft → Option β} {write : α → Json} {f : α → β}
    {xs : List α} (h : ∀ x ∈ xs, read (ofJson (write x)) = some (f x)) :
    (ofJson (.array (xs.map write))).list? read = some (xs.map f) := by
  rw [ofJson, list?, ofItems_eq_map, List.map_map, List.mapM_map]
  exact mapM_eq_some_map h

theorem pair?_ofJson {α β : Type} {first : Draft → Option α} {second : Draft → Option β} {a : α} {b : β}
    {j k : Json} (hFirst : first (ofJson j) = some a) (hSecond : second (ofJson k) = some b) :
    (ofJson (.array [j, k])).pair? first second = some (a, b) := by
  simp [ofJson, ofItems, pair?, hFirst, hSecond]

end Fields

end Draft

namespace JsonForm

variable {α : Type} [JsonForm α]

/-- The value is written without doubles, at most so deep, and what it is written as is read as the
value. -/
structure Kept (n : Nat) (a : α) : Prop where
  nests : (toJson a).Nests n
  read : ofDraft? (Draft.ofJson (toJson a)) = some a

/-- The text of such a value is read as the value. -/
theorem Kept.ofText?_toText {n : Nat} {a : α} (h : Kept n a) : ofText? (toText a) = some a := by
  have hDepth := Draft.ofChars?_chars h.nests.of_length
  rw [ofText?, toText, Json.text, String.length_ofList, String.toList_ofList, hDepth, Option.bind_some,
    h.read]

end JsonForm

section Forms

open JsonForm

theorem kept_data (d : Data) : Kept 1 d where
  nests := by
    refine .array 0 _ fun item hm => ?_
    obtain ⟨b, -, rfl⟩ := List.mem_map.mp hm
    exact .int 0 _
  read := by
    have hBytes : (Draft.ofJson (toJson d)).list? (Draft.nat? 256) = some (d.bytes.map UInt8.toNat) :=
      Draft.list?_ofJson fun b _ => Draft.nat?_ofJson b.toNat_lt (by decide)
    simp only [ofDraft?, hBytes, Option.map_some, List.map_map]
    simp [Function.comp_def]

theorem kept_version (v : ServerVersion) : Kept 1 v where
  nests := by
    refine .object 0 _ ?_
    simp only [List.forall_mem_cons]
    exact ⟨.int _ _, .int _ _, .int _ _, nofun⟩
  read := by
    simp only [toJson, ofDraft?]
    rw [Draft.fields?_ofJson (by rfl) (by decide)]
    simp [Draft.required?, Draft.nat?_ofJson v.major.toNat_lt (by decide),
      Draft.nat?_ofJson v.minor.toNat_lt (by decide), Draft.nat?_ofJson v.patch.toNat_lt (by decide)]

theorem kept_address (a : MemberAddress) : Kept 1 a where
  nests := by
    refine .object 0 _ ?_
    simp only [List.forall_mem_cons]
    exact ⟨.string _ _, .int _ _, nofun⟩
  read := by
    simp only [toJson, ofDraft?]
    rw [Draft.fields?_ofJson (by rfl) (by decide)]
    simp [Draft.required?, Draft.text?_ofJson, Draft.nat?_ofJson a.port.toNat_lt (by decide)]

theorem kept_shape (s : EventShape) : Kept 0 s where
  nests := .string 0 _
  read := by
    simp only [toJson, ofDraft?, Draft.variant?_ofJson]
    cases s <;> rfl

theorem kept_eviction (p : EvictionPolicy) : Kept 0 p where
  nests := .string 0 _
  read := by
    simp only [toJson, ofDraft?, Draft.variant?_ofJson]
    cases p <;> rfl

theorem kept_format (f : InMemoryFormat) : Kept 0 f where
  nests := .string 0 _
  read := by
    simp only [toJson, ofDraft?, Draft.variant?_ofJson]
    cases f <;> rfl

/-- The parts of a duration make up the duration. -/
theorem ofParts?_secs_nanos (d : Duration) : Duration.ofParts? d.secs d.nanos.val = some d := by
  have hNanos : d.nanos.val / 1000000000 = 0 := Nat.div_eq_of_lt d.nanos.isLt
  have hSecs : d.secs.toNat < UInt64.size := d.secs.toNat_lt
  simp only [Duration.ofParts?, hNanos, Nat.add_zero, hSecs, if_true]
  simp

theorem kept_duration (d : Duration) : Kept 1 d where
  nests := by
    refine .object 0 _ ?_
    simp only [List.forall_mem_cons]
    exact ⟨.int _ _, .int _ _, nofun⟩
  read := by
    have hNanos : d.nanos.val < UInt32.size := Nat.lt_trans d.nanos.isLt (by decide)
    simp only [toJson, ofDraft?]
    rw [Draft.closedFields?_ofJson (by rfl) (by decide)]
    simp [Draft.required?, Draft.nat?_ofJson d.secs.toNat_lt (by decide),
      Draft.nat?_ofJson hNanos (by decide), ofParts?_secs_nanos]

theorem nests_optionJson {α : Type} [JsonForm α] {n : Nat} {o : Option α}
    (h : ∀ a, o = some a → Kept n a) : (optionJson o).Nests n := by
  cases o with
  | none => exact .null n
  | some a => exact (h a rfl).nests

/-- A field that may be missing is told from one that is not by a value that is not null. -/
theorem optional?_optionJson (o : Option Duration) :
    Draft.optional? ofDraft? (some (Draft.ofJson (optionJson o))) = some o := by
  cases o with
  | none => rfl
  | some d =>
      show (ofDraft? (Draft.ofJson (toJson d))).map some = some (some d)
      rw [(kept_duration d).read, Option.map_some]

theorem int64?_ofJson (n : Int64) : (Draft.ofJson (.int n.toInt)).int64? = some n := by
  have hMin := n.le_toInt
  have hMax := n.toInt_lt
  have hRead : (Draft.ofJson (.int n.toInt)).int? Int64.minValue.toInt Int64.maxValue.toInt =
      some n.toInt := by
    rw [Int64.toInt_minValue, Int64.toInt_maxValue]
    exact Draft.int?_ofJson hMin (by omega) hMin (by omega)
  rw [Draft.int64?, hRead, Option.map_some, Int64.ofInt_toInt]

theorem uint64?_ofJson (n : UInt64) : (Draft.ofJson (.int n.toNat)).uint64? = some n := by
  rw [Draft.uint64?, Draft.nat?_ofJson n.toNat_lt (by decide), Option.map_some, UInt64.ofNat_toNat]

theorem kept_config (c : CacheConfig) : Kept 2 c where
  nests := by
    refine .object 1 _ ?_
    simp only [List.forall_mem_cons]
    refine ⟨.string _ _, .int _ _, .string _ _, ?_, ?_, .string _ _, .bool _ _, nofun⟩
    · exact nests_optionJson fun d _ => kept_duration d
    · exact nests_optionJson fun d _ => kept_duration d
  read := by
    unfold instJsonFormCacheConfig
    dsimp only
    rw [Draft.fields?_ofJson (by rfl) (by decide)]
    simp [Draft.required?, Draft.text?_ofJson, uint64?_ofJson, (kept_eviction _).read,
      (kept_format _).read, optional?_optionJson, Draft.bool?_ofJson]

theorem kept_coherence (c : CoherenceConfig) : Kept 2 c where
  nests := by
    refine .object 1 _ ?_
    simp only [List.forall_mem_cons]
    exact ⟨.int _ _, .int _ _, .int _ _, .int _ _, (kept_duration _).nests, (kept_duration _).nests,
      (kept_duration _).nests, nofun⟩
  read := by
    unfold instJsonFormCoherenceConfig
    dsimp only
    rw [Draft.fields?_ofJson (by rfl) (by decide)]
    simp [Draft.required?, int64?_ofJson, uint64?_ofJson, (kept_duration _).read]

/-- The entries of a map, added one after the other, make up the map. -/
theorem foldl_insert_toList {β : Type} (m : Std.ExtTreeMap String β) :
    m.toList.foldl (fun m entry => m.insert entry.1 entry.2) ∅ = m := by
  rw [← Std.ExtTreeMap.insertMany_list_eq_foldl]
  apply Std.ExtTreeMap.ext_getElem?
  intro key
  cases hFound : m[key]? with
  | some value =>
      exact Std.ExtTreeMap.getElem?_insertMany_list_of_mem Std.ReflCmp.compare_self
        Std.ExtTreeMap.distinct_keys_toList
        (Std.ExtTreeMap.mem_toList_iff_getElem?_eq_some.mpr hFound)
  | none =>
      rw [Std.ExtTreeMap.getElem?_insertMany_list_of_contains_eq_false, Std.ExtTreeMap.getElem?_empty]
      rw [Std.ExtTreeMap.map_fst_toList_eq_keys]
      simpa using hFound

theorem kept_catalog (cs : ConfigCatalog) : Kept 4 cs where
  nests := by
    refine .object 3 _ ?_
    simp only [List.forall_mem_cons]
    refine ⟨.object 2 _ fun m hm => ?_, nofun⟩
    obtain ⟨entry, -, rfl⟩ := List.mem_map.mp hm
    exact (kept_config entry.2).nests
  read := by
    unfold instJsonFormConfigCatalog
    dsimp only
    rw [Draft.fields?_ofJson (by rfl) (by decide)]
    simp only [List.map_cons, List.map_nil, Option.bind_eq_bind, Option.bind_some, Draft.required?,
      Draft.members?_ofJson, List.map_map, List.mapM_map]
    rw [mapM_eq_some_map (g := id) fun entry _ => by simp [(kept_config entry.2).read]]
    rw [Option.bind_some, List.map_id, foldl_insert_toList]
    rfl

/-- All partition numbers in a report are in the range of their 32 bits, and all sequence numbers in the
range of their 64. -/
structure MemberReport.Representable (report : MemberReport) : Prop where
  sources : ∀ p ∈ report.sources, Int32.minValue.toInt ≤ p.1 ∧ p.1 ≤ Int32.maxValue.toInt
  sequences : ∀ named ∈ report.sequences, ∀ p ∈ named.2,
    (Int32.minValue.toInt ≤ p.1 ∧ p.1 ≤ Int32.maxValue.toInt) ∧
      Int64.minValue.toInt ≤ p.2 ∧ p.2 ≤ maxSequence

theorem partition?_ofJson {p : Int} (hMin : Int32.minValue.toInt ≤ p)
    (hMax : p ≤ Int32.maxValue.toInt) : MemberReport.partition? (Draft.ofJson (.int p)) = some p := by
  have hLow := hMin
  have hHigh := hMax
  rw [Int32.toInt_minValue] at hLow
  rw [Int32.toInt_maxValue] at hHigh
  exact Draft.int?_ofJson hMin hMax (by omega) (by omega)

theorem sequence?_ofJson {n : Int} (hMin : Int64.minValue.toInt ≤ n) (hMax : n ≤ maxSequence) :
    MemberReport.sequence? (Draft.ofJson (.int n)) = some n := by
  have hLow := hMin
  have hHigh := hMax
  rw [Int64.toInt_minValue] at hLow
  rw [maxSequence] at hHigh
  exact Draft.int?_ofJson hMin hMax hLow (by omega)

theorem source?_ofJson (source : SourceId) :
    MemberReport.source? (Draft.ofJson (.string (uuidText source))) = some source := by
  rw [MemberReport.source?, Draft.text?_ofJson, Option.bind_some, readUuid?_uuidText]

theorem kept_report {report : MemberReport} (h : report.Representable) : Kept 5 report where
  nests := by
    refine .object 4 _ ?_
    simp only [List.forall_mem_cons]
    refine ⟨.array 3 _ fun item hm => ?_, .array 3 _ fun item hm => ?_, nofun⟩
    · obtain ⟨p, -, rfl⟩ := List.mem_map.mp hm
      exact .pair (.int _ _) (.string _ _)
    · obtain ⟨named, -, rfl⟩ := List.mem_map.mp hm
      refine .pair (.string _ _) (.array 1 _ fun item hm => ?_)
      obtain ⟨p, -, rfl⟩ := List.mem_map.mp hm
      exact .pair (.int _ _) (.int _ _)
  read := by
    have hSources : (Draft.ofJson (.array (report.sources.map fun p =>
        .array [.int p.1, .string (uuidText p.2)]))).list?
          (Draft.pair? MemberReport.partition? MemberReport.source?) = some (report.sources.map id) :=
      Draft.list?_ofJson fun p hp =>
        Draft.pair?_ofJson (partition?_ofJson (h.sources p hp).1 (h.sources p hp).2) (source?_ofJson p.2)
    have hSequences : (Draft.ofJson (.array (report.sequences.map fun named =>
        .array [.string named.1, .array (named.2.map fun p => .array [.int p.1, .int p.2])]))).list?
          (Draft.pair? Draft.text? (Draft.list? (Draft.pair? MemberReport.partition?
            MemberReport.sequence?))) =
              some (report.sequences.map fun named => (named.1, named.2.map id)) := by
      refine Draft.list?_ofJson fun named hNamed => ?_
      refine Draft.pair?_ofJson (Draft.text?_ofJson named.1) (Draft.list?_ofJson fun p hp => ?_)
      obtain ⟨⟨hLow, hHigh⟩, hMin, hMax⟩ := h.sequences named hNamed p hp
      exact Draft.pair?_ofJson (partition?_ofJson hLow hHigh) (sequence?_ofJson hMin hMax)
    unfold instJsonFormMemberReport
    dsimp only
    rw [Draft.fields?_ofJson (by rfl) (by decide)]
    simp [Draft.required?, hSources, hSequences]

end Forms

end NearCache
