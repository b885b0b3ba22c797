import NearCache.Client.State

/-!
What an activity of a client still has to do, as a list of actions. An action that waits names the
instant at which it goes on, or the thing that it waits for. Between two actions other activities may
take their turns.
-/

namespace NearCache

/-- What an activity was for, once it is over. -/
inductive Outcome
  | done
  | flag (b : Bool)
  | handle (cache : Option CacheId)
  | subscribed (result : Except Error EventShape)
  | unsubscribed (result : Except Error Bool)
  | fetched (reports : List MemberReport) (failures : Nat)
  | answered (result : Except Error Response)
  | faulted (fault : Fault)
deriving Repr

/-- What follows an attempt to register a listener. -/
inductive FollowUp
  /-- The result is the outcome. -/
  | report
  /-- The cache is settled in its new mode; it is seeded with fresh reports where asked for. -/
  | settle (seed : Bool)
deriving Repr

/-- One thing to do. -/
inductive Action
  /-- Find the cache of a name, or create it, and set it up. -/
  | findOrCreate (name : String)
  /-- Wait until a cache is set up, or set it up. -/
  | enterSetup (id : CacheId)
  /-- Note that a cache is set up. -/
  | finishSetup (id : CacheId)
  /-- Hand out a cache that is set up, unless the client was closed in the meantime. -/
  | handOut (name : String) (id : CacheId)
  /-- Wait until the setup of a cache is over, or make sure that there will be none. -/
  | sealSetup (id : CacheId)
  /-- Ask the cluster to register a listener for a cache. -/
  | subscribe (id : CacheId) (followUp : FollowUp)
  /-- Take the answer to that, once it is due. -/
  | awaitListener (id : CacheId) (shape : EventShape) (due : Nat) (followUp : FollowUp)
  /-- Unbind the listener of a cache and ask the cluster to remove it. -/
  | unsubscribe (id : CacheId)
  /-- Take the answer to that. -/
  | awaitRemoval (request : Request) (lost : Bool)
  /-- Ask all members for their reports on a cache. -/
  | seed (id : CacheId) (limit : Duration)
  /-- Take the reports, and apply them to the cache. -/
  | awaitSeed (id : CacheId) (round : Round)
  /-- Start the worker. -/
  | startWorker
  /-- Tell the worker to stop. -/
  | stopWorker
  /-- Wait until it has stopped, or stop it from outside when its time is over. -/
  | awaitWorker (worker : WorkerId) (due : Nat)
  /-- Take the cache of a name out of the directory and tear it down. -/
  | destroy (name : String)
  /-- Release the local state of a cache. -/
  | release (id : CacheId)
  /-- Close the client. -/
  | close
  /-- Destroy every cache in the directory, in the order of their names. A concurrent map may give
  them in any order. -/
  | destroyAll
  /-- Register the listener of every cache in the directory anew, in the order of their names. As with
  `destroyAll`, the order may in general be any. -/
  | resubscribeAll
  /-- Register the listener of one cache anew. -/
  | resubscribe (id : CacheId)
  /-- Wait until an instant. -/
  | sleep (due : Nat)
  /-- Ask all members for their reports on some names. -/
  | fetch (names : List String) (limit : Duration)
  /-- Take the reports. -/
  | awaitFetch (round : Round)
  /-- Send a request to the cluster, or to the member of a place. -/
  | send (request : Request) (place : Option Nat)
  /-- Take the answer of the cluster, once it is due. -/
  | awaitAnswer (request : Request) (due : Nat)
  /-- Take the answer of a member, once it is due. -/
  | awaitCall (call : Call)
  /-- Settle the outcome. -/
  | conclude (outcome : Outcome)
deriving Repr

namespace Action

/-- Get the cache of a name, setting it up on first use. -/
def getOrCreate (name : String) : List Action :=
  [.findOrCreate name]

/-- Shut the client down: stop the worker, destroy every cache, and stop a worker that a setup has
started meanwhile. -/
def shutdown : List Action :=
  [.close, .stopWorker, .destroyAll, .stopWorker, .conclude .done]

/-- Register all listeners anew after the connection to the cluster was lost. -/
def resubscribeEverything : List Action :=
  [.resubscribeAll, .conclude .done]

/-- The instant at which a waiting action goes on by itself. -/
def wakes : Action → Option Nat
  | .awaitListener _ _ due _ => some due
  | .awaitSeed _ round => round.wakes
  | .awaitWorker _ due => some due
  | .sleep due => some due
  | .awaitFetch round => round.wakes
  | .awaitAnswer _ due => some due
  | .awaitCall call => some call.due
  | _ => none

/-- The caches that an action speaks of. -/
def mentions : Action → List CacheId
  | .enterSetup id | .finishSetup id | .handOut _ id | .sealSetup id | .subscribe id _
  | .awaitListener id _ _ _ | .unsubscribe id | .seed id _ | .awaitSeed id _ | .release id
  | .resubscribe id => [id]
  | .conclude (.handle (some id)) => [id]
  | _ => []

end Action

end NearCache
