import NearCache.Identity

/-!
Texts of source ids: 32 hexadecimal digits, written in lower case in five groups. A source id is read
from the digits alone, from the groups with dashes between them, and from the groups in braces or
after a URN label.
-/

namespace NearCache

/-- The five groups of digits with dashes between them. -/
def uuidText (source : SourceId) : String :=
  let digits := hexDigits 32 source.toNat
  String.ofList (digits.take 8 ++ '-' :: (digits.drop 8).take 4 ++ '-' :: (digits.drop 12).take 4 ++
    '-' :: (digits.drop 16).take 4 ++ '-' :: digits.drop 20)

/-- The source id that 32 digits write. -/
def readUuidDigits? (cs : List Char) : Option SourceId :=
  if cs.length = 32 then (readHex? cs).map (BitVec.ofNat 128) else none

/-- The source id that five groups write, of 8, 4, 4, 4 and 12 digits. -/
def readUuidGroups? (cs : List Char) : Option SourceId :=
  let group (start width : Nat) := (cs.drop start).take width
  if cs.length = 36 ∧ group 8 1 = ['-'] ∧ group 13 1 = ['-'] ∧ group 18 1 = ['-'] ∧
      group 23 1 = ['-'] then
    readUuidDigits? (group 0 8 ++ group 9 4 ++ group 14 4 ++ group 19 4 ++ group 24 12)
  else none

/-- The label of a URN that names a source id. It counts in either case. -/
def uuidLabel : List Char := "urn:uuid:".toList

/-- The groups of a text that stands in braces or after the label. -/
def unwrapUuid (cs : List Char) : List Char :=
  if cs.length = 38 ∧ cs.head? = some '\x7b' ∧ cs.getLast? = some '\x7d' then (cs.drop 1).take 36
  else if cs.length = 45 ∧ (cs.take 9).map Char.toLower = uuidLabel then cs.drop 9
  else cs

/-- The source id that a text writes. -/
def readUuid? (s : String) : Option SourceId :=
  let cs := s.toList
  if cs.length = 32 then readUuidDigits? cs else readUuidGroups? (unwrapUuid cs)

end NearCache
