import NearCache.Cluster.Basic

/-!
Rounds of metadata requests: every member is asked at the same time, each under the same limit, and
the round is over when each has answered, failed or run out of time. The replies stand in the order
of the members, whatever the order in which they came.
-/

namespace NearCache

/-- A request to one member: when it is due to answer, what was switched on when it was asked, and
its reply. -/
structure Call where
  /-- The member's place in the cluster. -/
  place : Nat
  address : MemberAddress
  request : Request
  due : Nat
  breaksDown : Bool
  refused : Bool
  reply : Option (Except Error MemberReport)
deriving Repr

/-- Requests to all members under one limit. -/
structure Round where
  limit : Duration
  deadline : Nat
  calls : List Call
deriving Repr

namespace Cluster

/-- Asks the member of a place at an instant. -/
def ask (c : Cluster) (now place : Nat) (request : Request) : Cluster × Call :=
  let member := c.memberAt place
  (c.receive request, {
    place := place
    address := member.address
    request := request
    due := now + boundedPause (member.delay.getD 0)
    breaksDown := c.faults.breakDown
    refused := member.failing
    reply := none })

end Cluster

namespace Call

/-- The report in what a member answered. -/
def reportOf (request : Request) : Except Error Response → Except Error MemberReport
  | .ok (.metadata report) => .ok report
  | .ok other => .error (.cluster (.unexpectedResponse request.kind other.kind))
  | .error e => .error e

/-- Whether the call has a reply. -/
def isDone (call : Call) : Bool :=
  call.reply.isSome

/-- The instant at which an unanswered call gets its reply. -/
def wakes (deadline : Nat) (call : Call) : Option Nat :=
  if call.isDone then none else some (min call.due deadline)

/-- The call at an instant: answered if the member is due, else given up if the deadline is there.
An answer due exactly at the deadline counts. -/
def poll (c : Cluster) (now deadline : Nat) (limit : Duration) (call : Call) : Except Fault Call :=
  if call.isDone then .ok call
  else if call.due ≤ now then
    if call.breaksDown then .error (.memberBrokeDown call.address)
    else
      let answer := (c.answerAt call.place call.refused call.request).2
      .ok { call with reply := some (reportOf call.request answer) }
  else if deadline ≤ now then
    .ok { call with reply := some (.error (.cluster (.timeout call.address limit))) }
  else .ok call

end Call

namespace Round

/-- Whether every call has a reply. -/
def isDone (r : Round) : Bool :=
  r.calls.all Call.isDone

/-- The next instant at which a call gets its reply. -/
def wakes (r : Round) : Option Nat :=
  (r.calls.filterMap (Call.wakes r.deadline)).min?

/-- Whether there is something to do at an instant: a reply to take, or the whole round to end. -/
def isReady (r : Round) (now : Nat) : Bool :=
  match r.wakes with
  | some due => due ≤ now
  | none => true

/-- The round at an instant. A member that breaks down takes the round with it. -/
def poll (c : Cluster) (now : Nat) (r : Round) : Except Fault Round :=
  (r.calls.mapM (Call.poll c now r.deadline r.limit)).map fun calls => { r with calls := calls }

/-- The reports that came, in the order of the members. -/
def reports (r : Round) : List MemberReport :=
  r.calls.filterMap fun call => match call.reply with
    | some (.ok report) => some report
    | _ => none

/-- The number of calls that failed or ran out of time. -/
def failures (r : Round) : Nat :=
  r.calls.countP fun call => match call.reply with
    | some (.error _) => true
    | _ => false

end Round

namespace Cluster

/-- Asks the members of some places one after the other. One that breaks down at once leaves the
others unasked. -/
def askAll (c : Cluster) (now deadline : Nat) (limit : Duration) (request : Request) :
    List Nat → Attempt Cluster (List Call)
  | [] => (c, .ok [])
  | place :: rest =>
    let asked := c.ask now place request
    match asked.2.poll asked.1 now deadline limit with
    | .error fault => (asked.1, .error fault)
    | .ok call =>
      let others := asked.1.askAll now deadline limit request rest
      (others.1, others.2.map (call :: ·))

/-- Asks every member for its report on some cache names. -/
def beginRound (c : Cluster) (now : Nat) (names : List String) (limit : Duration) :
    Attempt Cluster Round :=
  let deadline := now + limit.toTicks
  let asked := c.askAll now deadline limit (.fetchMetadata names) (List.range c.members.size)
  (asked.1, asked.2.map fun calls => ⟨limit, deadline, calls⟩)

end Cluster

end NearCache
