import NearCache.Client.Schedule

/-!
A session: a client in use. Whoever uses it holds the newest cache handed out under each name, also
after that cache was destroyed, and may have creations running in the background. A cache that nobody
can reach any more is gone, and events for it come to nothing.
-/

namespace NearCache

/-- A client in use. -/
structure Session where
  schedule : Schedule
  nextActivity : ActivityId
  /-- The creations running in the background, and the names they are for. -/
  spawned : List (ActivityId × String)
  held : Std.ExtTreeMap String CacheId
  /-- The wall clock, by which entries are dated. -/
  clock : Instant
  /-- How many requests the cluster had received before the current step. -/
  received : Nat

/-- What a user gets when asking for a cache. -/
inductive Handed
  | nothing
  /-- A cache not held before. -/
  | new
  /-- The cache that is held already. -/
  | same
  | fault (f : Fault)
deriving DecidableEq, Repr

namespace Session

/-- Bound on the turns taken in one step. -/
def fuel : Nat := 10000000

/-- What passes on the wall clock between two uses of a cache. -/
def clockStep : Instant := 2000

/-- A session that has just begun. -/
def create (s : Client) : Session :=
  ⟨.idle s, 0, [], ∅, 0, 0⟩

/-- The session of a client with one cache under its name, and no worker. -/
def ofCache (coherence : CoherenceConfig) (cluster : Cluster) (cache : Cache) : Session :=
  let added := (Client.create .empty coherence cluster).addCache cache
  { create added.1 with held := (∅ : Std.ExtTreeMap String CacheId).insert cache.name added.2 }

/-- The client and its cluster. -/
def client (s : Session) : Client :=
  s.schedule.client

/-- Changes the client or its cluster. -/
def modifyClient (s : Session) (change : Client → Client) : Session :=
  { s with schedule := { s.schedule with client := change s.client } }

/-- Changes the cluster. -/
def modifyCluster (s : Session) (change : Cluster → Cluster) : Session :=
  s.modifyClient fun client => client.withCluster (change client.cluster)

/-- The caches that an activity keeps in reach. -/
def reachedBy (a : Activity) : List CacheId :=
  (Action.conclude a.outcome :: a.todo).flatMap Action.mentions

/-- The caches that a worker keeps in reach. -/
def reachedByWorker (w : Worker) : List CacheId :=
  match w.stage with
  | .fetching ids _ => ids
  | _ => []

/-- The caches that can still be reached. -/
def reachable (s : Session) : List CacheId :=
  s.client.registered ++ s.held.values ++ s.schedule.activities.flatMap reachedBy ++
    s.client.workers.values.flatMap reachedByWorker

/-- Lets go of the caches that cannot be reached any more. -/
def collect (s : Session) : Session :=
  let kept := s.reachable
  s.modifyClient fun client =>
    { client with caches := client.caches.filter fun id _ => kept.contains id }

/-- Begins a step: requests received from here on belong to it. -/
def beginStep (s : Session) : Session :=
  { s with received := s.client.cluster.log.length }

/-- The requests received in the current step. -/
def stepRequests (s : Session) : List Request :=
  let log := s.client.cluster.log
  (log.take (log.length - s.received)).reverse

/-- Ends a step: the background goes on until everything in it waits. -/
def endStep (s : Session) : Session :=
  { s with schedule := s.schedule.settle fuel }.collect

/-- Carries out actions in the foreground. -/
def perform (s : Session) (todo : List Action) : Session × Outcome :=
  let run := s.schedule.foreground fuel ⟨s.nextActivity, todo, .done⟩
  ({ s with schedule := run.1, nextActivity := s.nextActivity + 1 }, run.2.outcome)

/-- Takes hold of a cache under a name. -/
def hold (s : Session) (name : String) (id : CacheId) : Session × Handed :=
  if s.held[name]? = some id then (s, .same)
  else ({ s with held := s.held.insert name id }, .new)

/-- Takes hold of what a creation handed out. -/
def take (s : Session) (name : String) : Outcome → Session × Handed
  | .handle (some id) => s.hold name id
  | .faulted f => (s, .fault f)
  | _ => (s, .nothing)

/-- Gets the cache of a name, setting it up on first use. -/
def getOrCreate (s : Session) (name : String) : Session × Handed :=
  let run := s.perform (Action.getOrCreate name)
  run.1.take name run.2

/-- Looks up the cache of a name. -/
def lookup (s : Session) (name : String) : Session × Handed :=
  match s.client.directory[name]? with
  | some id => s.hold name id
  | none => (s, .nothing)

/-- Starts a creation in the background. -/
def spawn (s : Session) (name : String) : Session :=
  { s with
    schedule := s.schedule.enqueue (.activity ⟨s.nextActivity, Action.getOrCreate name, .done⟩)
    nextActivity := s.nextActivity + 1
    spawned := s.spawned ++ [(s.nextActivity, name)] }

/-- Takes hold of what several creations handed out, in order. -/
def takeAll (s : Session) : List (String × Outcome) → Session × List Handed
  | [] => (s, [])
  | found :: rest =>
    let first := s.take found.1 found.2
    let others := first.1.takeAll rest
    (others.1, first.2 :: others.2)

/-- Waits for all creations in the background, and takes hold of what they hand out. -/
def join (s : Session) : Session × List Handed :=
  let schedule := s.schedule.finishAll fuel
  let outcome (id : ActivityId) : Outcome :=
    ((schedule.activities.find? (·.id = id)).map Activity.outcome).getD .done
  let found := s.spawned.map fun p => (p.2, outcome p.1)
  { s with schedule := { schedule with finished := [] }, spawned := [] }.takeAll found

/-- The cache held under a name. -/
def heldCache? (s : Session) (name : String) : Option Cache :=
  s.held[name]?.bind (s.client.caches[·]?)

/-- The caches held, in the order of their names. -/
def heldCaches (s : Session) : List Cache :=
  s.client.cachesOf s.held.values

/-- The names of the caches in the directory. -/
def names (s : Session) : List String :=
  s.client.directory.keys

/-- Uses the cache held under a name, a little later on the wall clock than the last one used. -/
def useCache {α : Type} (s : Session) (name : String) (use : Cache → Instant → Cache × α) :
    Session × Option α :=
  let s := { s with clock := s.clock + clockStep }
  match s.held[name]? with
  | none => (s, none)
  | some id =>
    match s.client.caches[id]? with
    | none => (s, none)
    | some cache =>
      let used := use cache s.clock
      (s.modifyClient (·.modifyCache id fun _ => used.1), some used.2)

/-- Registers a listener for the cache held under a name. -/
def subscribe (s : Session) (name : String) : Session × Outcome :=
  match s.held[name]? with
  | none => (s, .done)
  | some id => s.perform [.subscribe id .report]

/-- Removes the listener of the cache held under a name. -/
def unsubscribe (s : Session) (name : String) : Session × Outcome :=
  match s.held[name]? with
  | none => (s, .done)
  | some id => s.perform [.unsubscribe id]

/-- Seeds the cache held under a name from the reports of all members. -/
def seed (s : Session) (name : String) (limit : Duration) : Session × Outcome :=
  match s.held[name]? with
  | none => (s, .done)
  | some id => s.perform [.seed id limit, .conclude .done]

/-- Waits for some milliseconds. -/
def sleep (s : Session) (millis : Nat) : Session × Outcome :=
  s.perform [.sleep (s.client.now + boundedPause millis)]

/-- Delivers an event for a cache name. -/
def deliver (s : Session) (name : String) (event : Event) : Session × Except Fault Nat :=
  let delivered := s.client.deliver name event
  (s.modifyClient fun _ => delivered.1, delivered.2)

end Session

end NearCache
