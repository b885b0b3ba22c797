import NearCache.Text.Quoted
import NearCache.Text.Record
import NearCache.Text.Decimal

/-!
Network addresses of cluster members.
-/

namespace NearCache

/-- Where a member is reached. Addresses are ordered by host, then by port number. -/
structure MemberAddress where
  host : String
  port : UInt16
deriving DecidableEq, Repr, Inhabited

namespace MemberAddress

/-- Host and port with a colon between them. -/
def text (a : MemberAddress) : String :=
  a.host ++ ":" ++ natText a.port.toNat

/-- Whether `a` comes before `b` or equals it. -/
def le (a b : MemberAddress) : Bool :=
  a.host < b.host || (a.host == b.host && a.port ≤ b.port)

/-- The diagnostic text. -/
def shown (a : MemberAddress) : String :=
  recordText "MemberAddress" [("host", quoted a.host), ("port", natText a.port.toNat)]

end MemberAddress

end NearCache
