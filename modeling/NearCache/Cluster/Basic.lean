import NearCache.Error
import NearCache.Fault
import NearCache.Message

/-!
A cluster as its clients meet it: members that report what they own, registered listeners, and the
handlers that clients have bound to them. Delays and failures can be switched on, and every request
received is logged.
-/

namespace NearCache

/-- Number of a cache that a client has created. -/
abbrev CacheId := Nat

/-- A member of the cluster. -/
structure Member where
  address : MemberAddress
  report : MemberReport
  /-- Milliseconds until the member answers. -/
  delay : Option Nat
  /-- Whether the member refuses every request. -/
  failing : Bool
  /-- Whether the member confuses its answers. -/
  confused : Bool
deriving DecidableEq, Repr

namespace Member

/-- A member that owns nothing and answers at once. -/
def create (address : MemberAddress) : Member :=
  ⟨address, .empty, none, false, false⟩

end Member

/-- Failures of listener requests and of member requests that are switched on. -/
structure ClusterFaults where
  /-- Members break down when they are asked. -/
  breakDown : Bool
  /-- New listeners are refused. -/
  refuseListeners : Bool
  /-- Milliseconds until a new listener is answered. -/
  listenerDelay : Option Nat
  /-- New listeners are registered, but the answer is that of a removal. -/
  confuseAdd : Bool
  /-- Listeners are removed, but the answer is a report. -/
  confuseRemove : Bool
  /-- Listeners are removed, but the answer is a failure. -/
  failRemove : Bool
  /-- Removals do not reach the cluster. -/
  loseRemove : Bool
deriving DecidableEq, Repr

namespace ClusterFaults

/-- Everything works. -/
def none : ClusterFaults := ⟨false, false, .none, false, false, false, false⟩

end ClusterFaults

/-- A cluster. -/
structure Cluster where
  /-- The members. A member is told from the others by its place, counted from zero. -/
  members : Array Member
  version : ServerVersion
  faults : ClusterFaults
  /-- The cache name of each registered listener. -/
  registrations : Std.ExtTreeMap RegistrationId String
  /-- The cache that handles the events of a registration. -/
  bindings : Std.ExtTreeMap RegistrationId CacheId
  nextRegistration : Nat
  /-- All requests received, the newest first. -/
  log : List Request
deriving DecidableEq

namespace Cluster

/-- The port of the first member. -/
def firstPort : Nat := 5701

/-- The address of the member of this number on the local host. -/
def localAddress (index : Nat) : MemberAddress :=
  ⟨"127.0.0.1", UInt16.ofNat (firstPort + index)⟩

/-- A cluster of `count` members on consecutive ports, of a version with repairable events. -/
def ofSize (count : Nat) : Cluster where
  members := (Array.range count).map fun i => .create (localAddress i)
  version := ⟨4, 2, 0⟩
  faults := .none
  registrations := ∅
  bindings := ∅
  nextRegistration := 1
  log := []

/-- The largest port number. -/
def lastPort : Nat := 65535

/-- A cluster of `count` members, unless there are not that many ports. -/
def ofSize? (count : UInt16) : Except Fault Cluster :=
  if firstPort + count.toNat ≤ lastPort + 1 then .ok (ofSize count.toNat) else .error .addOverflow

/-- The member of a place. Beyond the last place stand members that own nothing. -/
def memberAt (c : Cluster) (place : Nat) : Member :=
  c.members.getD place (.create (localAddress place))

/-- Changes the member of a place. -/
def modifyMember (c : Cluster) (place : Nat) (change : Member → Member) : Cluster :=
  { c with members := c.members.modify place change }

/-- Notes a request. -/
def receive (c : Cluster) (request : Request) : Cluster :=
  { c with log := request :: c.log }

/-- The number of metadata requests received. -/
def fetchCount (c : Cluster) : Nat :=
  c.log.countP fun r => match r with
    | .fetchMetadata _ => true
    | _ => false

/-- The number of listener registrations requested for a cache name. -/
def addedCount (c : Cluster) (name : String) : Nat :=
  c.log.countP fun r => match r with
    | .addListener cacheName _ _ => cacheName = name
    | _ => false

/-- The number of registered listeners. -/
def activeCount (c : Cluster) : Nat :=
  c.registrations.size

/-- The text of a registration number. -/
def registrationText (n : Nat) : RegistrationId :=
  "reg-" ++ natText n

/-- Binds a cache to the events of a registration. -/
def bind (c : Cluster) (registration : RegistrationId) (cache : CacheId) : Cluster :=
  { c with bindings := c.bindings.insert registration cache }

/-- Ends the binding of a registration. -/
def unbind (c : Cluster) (registration : RegistrationId) : Cluster :=
  { c with bindings := c.bindings.erase registration }

/-- The caches bound to the registrations of a cache name, once for each registration. -/
def handlers (c : Cluster) (name : String) : List CacheId :=
  c.registrations.toList.filterMap fun r => if r.2 = name then c.bindings[r.1]? else none

/-- The address that failures are blamed on. -/
def firstAddress (c : Cluster) : MemberAddress :=
  (c.memberAt 0).address

/-- Carries out a listener request. A metadata request is for one member only. -/
def carryOut (c : Cluster) : Request → Cluster × Except Error Response
  | .addListener cacheName _ _ =>
    if c.faults.refuseListeners then
      (c, .error (.cluster (.memberUnreachable c.firstAddress "listener registration rejected")))
    else
      let registration := registrationText c.nextRegistration
      ({ c with
          nextRegistration := c.nextRegistration + 1
          registrations := c.registrations.insert registration cacheName },
        .ok (.listenerAdded registration))
  | .removeListener _ registration =>
    ({ c with registrations := c.registrations.erase registration },
      .ok (.listenerRemoved (c.registrations.contains registration)))
  | .fetchMetadata names =>
    (c, .error (.cluster (.unexpectedResponse (Request.fetchMetadata names).kind
      "metadata fetches must target a member")))

/-- The failure of a removal. -/
def removalFailure : Error :=
  .cluster (.memberUnreachable (localAddress 0) "listener removal rejected")

/-- Whether a request to the cluster as a whole gets lost. -/
def loses (c : Cluster) : Request → Bool
  | .removeListener .. => c.faults.loseRemove
  | _ => false

/-- Milliseconds until a request to the cluster as a whole is carried out. -/
def delayOf (c : Cluster) : Request → Nat
  | .addListener .. => boundedPause (c.faults.listenerDelay.getD 0)
  | _ => 0

/-- What comes back for a request, given what the cluster answered. -/
def distort (c : Cluster) (request : Request) (answer : Except Error Response) :
    Except Error Response :=
  match request, answer with
  | .addListener .., .ok (.listenerAdded _) =>
    if c.faults.confuseAdd then .ok (.listenerRemoved true) else answer
  | .removeListener .., _ =>
    if c.faults.confuseRemove then .ok (.metadata .empty)
    else if c.faults.failRemove then .error removalFailure
    else answer
  | _, _ => answer

/-- Answers a request to the cluster as a whole. -/
def answer (c : Cluster) (request : Request) : Cluster × Except Error Response :=
  let done := c.carryOut request
  (done.1, done.1.distort request done.2)

/-- Answers a request to one member, which may have been refusing when it was asked. -/
def answerAt (c : Cluster) (place : Nat) (refused : Bool) (request : Request) :
    Cluster × Except Error Response :=
  let member := c.memberAt place
  if refused then (c, .error (.cluster (.memberUnreachable member.address "connection refused")))
  else
    let done : Cluster × Except Error Response := match request with
      | .fetchMetadata _ => (c, .ok (.metadata member.report))
      | _ => c.carryOut request
    match done.2 with
    | .ok _ => if member.confused then (done.1, .ok (.listenerAdded "")) else done
    | .error _ => done

/-- The diagnostic text. -/
def shown (c : Cluster) : String :=
  openRecordText "MockCluster"
    [("members", listText (c.members.toList.map fun m => m.address.shown)),
      ("version", optionText (some c.version.shown)),
      ("registrations", natText c.activeCount)]

/-- The diagnostic text of the services that a cluster offers its clients. -/
def servicesShown : String :=
  openRecordText "ClusterServices" []

end Cluster

end NearCache
