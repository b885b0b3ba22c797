import NearCache.Duration
import NearCache.Json.Printer
import NearCache.Json.Value
import NearCache.Text.Uuid

/-!
JSON forms of data types. A record is written as an object with its fields in order. It is read from
an object in which each of its fields occurs at most once, other members aside, or from an array of
exactly its fields in order.
-/

namespace NearCache

/-- Data types with a JSON form. -/
class JsonForm (α : Type) where
  toJson : α → Json
  ofDraft? : Draft → Option α

namespace JsonForm

/-- The serialized text of a value. -/
def toText {α : Type} [JsonForm α] (a : α) : String :=
  (toJson a).text

/-- The value that a text holds. -/
def ofText? {α : Type} [JsonForm α] (s : String) : Option α :=
  (Draft.ofChars? s.length s.toList).bind ofDraft?

end JsonForm

namespace Draft

/-- The members of an object, with their keys as text. -/
def members? : Draft → Option (List (String × Draft))
  | .object members => members.mapM fun m => (partsText? m.1).map (·, m.2)
  | _ => none

/-- The member of a key, if it occurs at most once. -/
def single? (members : List (String × Draft)) (key : String) : Option (Option Draft) :=
  match members.filter (·.1 = key) with
  | [] => some none
  | [member] => some (some member.2)
  | _ => none

/-- The fields of a record with these names, in the order of the names. -/
def fields? (names : List String) (d : Draft) : Option (List (Option Draft)) :=
  match d with
  | .array items => if items.length = names.length then some (items.map some) else none
  | _ => d.members?.bind fun members => names.mapM (single? members)

/-- The fields of a record that has no other members. -/
def closedFields? (names : List String) (d : Draft) : Option (List (Option Draft)) :=
  match d.members? with
  | some members => if members.all (names.contains ·.1) then d.fields? names else none
  | none => d.fields? names

/-- An integer between two bounds. -/
def int? (min max : Int) : Draft → Option Int
  | .number n => n.integer?.filter fun i => min ≤ i ∧ i ≤ max
  | _ => none

/-- A natural number below a bound. -/
def nat? (bound : Nat) (d : Draft) : Option Nat :=
  (d.int? 0 (bound - 1)).map Int.toNat

/-- A truth value. -/
def bool? : Draft → Option Bool
  | .bool b => some b
  | _ => none

/-- A text. -/
def text? : Draft → Option String
  | .string s => partsText? s
  | _ => none

/-- A list of values that are read in the same way. -/
def list? {α : Type} (read : Draft → Option α) : Draft → Option (List α)
  | .array items => items.mapM read
  | _ => none

/-- An array of two values. -/
def pair? {α β : Type} (first : Draft → Option α) (second : Draft → Option β) :
    Draft → Option (α × β)
  | .array [a, b] => do return (← first a, ← second b)
  | _ => none

/-- A field that must be there. -/
def required? {α : Type} (read : Draft → Option α) (field : Option Draft) : Option α :=
  field.bind read

/-- A field that may be missing or null. -/
def optional? {α : Type} (read : Draft → Option α) : Option Draft → Option (Option α)
  | none => some none
  | some .null => some none
  | some d => (read d).map some

/-- The name of a plain alternative: a text, or an object with null under that name alone. -/
def variant? : Draft → Option String
  | .string s => partsText? s
  | .object [(key, .null)] => partsText? key
  | _ => none

end Draft

instance : JsonForm Duration where
  toJson d := .object [("secs", .int d.secs.toNat), ("nanos", .int d.nanos.val)]
  ofDraft? d := do
    match ← d.closedFields? ["secs", "nanos"] with
    | [secs, nanos] =>
      let secs ← Draft.required? (Draft.nat? UInt64.size) secs
      let nanos ← Draft.required? (Draft.nat? UInt32.size) nanos
      Duration.ofParts? (UInt64.ofNat secs) nanos
    | _ => none

end NearCache
