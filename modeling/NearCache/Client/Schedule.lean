import NearCache.Client.Step

/-!
Taking turns on one thread. What can go on stands in a queue; a turn lasts until the job has to wait.
A job leaves the waiting ones as soon as something happens that lets it go on, and jobs that the same
thing lets go on keep the order in which they began to wait. Time stands still while anything can go
on, and then jumps to the next instant at which something does.
-/

namespace NearCache

/-- An activity: what it still has to do, and its outcome so far. -/
structure Activity where
  id : ActivityId
  todo : List Action
  outcome : Outcome

namespace Activity

/-- Whether nothing is left to do. -/
def isOver (a : Activity) : Bool :=
  a.todo.isEmpty

/-- The instant at which a waiting activity goes on by itself. -/
def wakes (a : Activity) : Option Nat :=
  a.todo.head?.bind Action.wakes

end Activity

/-- Something that takes turns. -/
inductive Job
  | activity (a : Activity)
  | worker (id : WorkerId)

/-- A job and its place among those that wait: it began to wait after those of lower numbers. -/
structure Waiter where
  job : Job
  place : Nat

/-- What became of the first action of an activity. -/
inductive Advance
  /-- The activity has to wait. -/
  | waiting (s : Client) (a : Activity)
  /-- The action is done, or a fault ended the activity. -/
  | moved (s : Client) (a : Activity)

namespace Client

/-- Carries out the first action of an activity. A fault ends the activity. -/
def advance (s : Client) (a : Activity) : Advance :=
  match a.todo with
  | [] => .waiting s a
  | action :: rest =>
    match s.perform a.id action with
    | .waiting s action => .waiting s { a with todo := action :: rest }
    | .moved s todo outcome =>
      .moved s { a with todo := todo ++ rest, outcome := outcome.getD a.outcome }
    | .stopped s fault => .moved (s.unwind a.todo) { a with todo := [], outcome := .faulted fault }

/-- Whether an activity can go on at present, at least in part. -/
def activityIsReady (s : Client) (a : Activity) : Bool :=
  a.todo.head?.all (s.isReady a.id)

/-- Whether a job can go on at present, at least in part. -/
def jobIsReady (s : Client) : Job → Bool
  | .activity a => s.activityIsReady a
  | .worker id => s.workerIsReady id

/-- The instant at which a waiting job goes on by itself. -/
def jobWakes (s : Client) : Job → Option Nat
  | .activity a => a.wakes
  | .worker id => s.workerWakes id

end Client

/-- A client with everything that takes turns in the background. -/
structure Schedule where
  client : Client
  /-- What can go on, in the order of the turns. -/
  queue : List Waiter
  /-- What has to wait, in the order of the places. -/
  waiting : List Waiter
  /-- The activities that are over. -/
  finished : List Activity
  nextPlace : Nat
  /-- The first worker that has no job yet. -/
  nextWorker : WorkerId

namespace Schedule

/-- Nothing goes on in the background. -/
def idle (s : Client) : Schedule := ⟨s, [], [], [], 0, s.nextWorker⟩

/-- Puts a new job at the end of the queue. -/
def enqueue (s : Schedule) (job : Job) : Schedule :=
  { s with queue := s.queue ++ [⟨job, s.nextPlace⟩], nextPlace := s.nextPlace + 1 }

/-- Gives every new worker a job. -/
def enlist (s : Schedule) : Schedule :=
  { (List.range' s.nextWorker (s.client.nextWorker - s.nextWorker)).foldl
      (fun s id => s.enqueue (.worker id)) s with
    nextWorker := s.client.nextWorker }

/-- Moves what can go on now from the waiting ones to the end of the queue. -/
def rouse (s : Schedule) : Schedule :=
  let split := s.waiting.partition fun w => s.client.jobIsReady w.job
  { s with queue := s.queue ++ split.1, waiting := split.2 }

/-- The schedule after something happened to the client. -/
def follow (s : Schedule) (client : Client) : Schedule :=
  { s with client := client }.rouse.enlist

/-- Lets an activity go on until it has to wait or is over, and says whether it is past the action with
which it began. -/
def runActivity (fuel : Nat) (s : Schedule) (a : Activity) (moved : Bool) :
    Schedule × Activity × Bool :=
  match fuel with
  | 0 => (s, a, moved)
  | fuel + 1 =>
    match s.client.advance a with
    | .waiting client a => (s.follow client, a, moved)
    | .moved client a => runActivity fuel (s.follow client) a true

/-- Lets a worker go on until it has to wait or has stopped, and says whether it is past the stage with
which it began. -/
def runWorker (fuel : Nat) (s : Schedule) (id : WorkerId) (moved : Bool) : Schedule × Bool :=
  match fuel with
  | 0 => (s, moved)
  | fuel + 1 =>
    if s.client.workerIsReady id then
      match s.client.stepWorker id with
      | (client, true) => runWorker fuel (s.follow client) id true
      | (client, false) => (s.follow client, moved)
    else (s, moved)

/-- Lets a job wait: at the end, or in its old place if it waits for the same thing as before. -/
def park (s : Schedule) (w : Waiter) (moved : Bool) : Schedule :=
  if moved then
    { s with
      waiting := s.waiting ++ [{ w with place := s.nextPlace }]
      nextPlace := s.nextPlace + 1 }
  else
    { s with
      waiting := s.waiting.takeWhile (·.place < w.place) ++
        w :: s.waiting.dropWhile (·.place < w.place) }

/-- One turn of a job. -/
def runJob (fuel : Nat) (s : Schedule) (w : Waiter) : Schedule :=
  match w.job with
  | .activity a =>
    let run := s.runActivity fuel a false
    if run.2.1.isOver then { run.1 with finished := run.1.finished ++ [run.2.1] }
    else run.1.park { w with job := .activity run.2.1 } run.2.2
  | .worker id =>
    let run := s.runWorker fuel id false
    if (run.1.client.workers[id]?).all Worker.isFinished then run.1 else run.1.park w run.2

/-- Lets the background take turns until everything in it waits. -/
def settle (fuel : Nat) (s : Schedule) : Schedule :=
  match fuel, s.queue with
  | fuel + 1, w :: rest => settle fuel ({ s with queue := rest }.runJob fuel w)
  | _, _ => s

/-- The next instant at which something in the background goes on by itself. -/
def wakes (s : Schedule) : Option Nat :=
  (s.waiting.filterMap fun w => s.client.jobWakes w.job).min?

/-- Moves the clock on to an instant, never back. -/
def wait (s : Schedule) (due : Nat) : Schedule :=
  s.follow { s.client with now := max s.client.now due }

/-- Lets an activity go on in the foreground until it is over. Whenever it waits, the background takes
its turns, and when that waits too, time moves on. -/
def foreground (fuel : Nat) (s : Schedule) (a : Activity) : Schedule × Activity :=
  match fuel with
  | 0 => (s, a)
  | fuel + 1 =>
    let run := s.runActivity fuel a false
    let a := run.2.1
    if a.isOver then (run.1, a)
    else
      let s := run.1.settle fuel
      if s.client.activityIsReady a then foreground fuel s a
      else
        match (s.wakes.toList ++ a.wakes.toList).min? with
        | some due => foreground fuel (s.wait due) a
        | none => (s, a)

/-- The activities in the background, over or not. -/
def activities (s : Schedule) : List Activity :=
  (s.queue ++ s.waiting).filterMap (fun w => match w.job with
    | .activity a => some a
    | .worker _ => none) ++ s.finished

/-- Lets time pass until every activity in the background is over. -/
def finishAll (fuel : Nat) (s : Schedule) : Schedule :=
  match fuel with
  | 0 => s
  | fuel + 1 =>
    let s := s.settle fuel
    if s.activities.all Activity.isOver then s
    else
      match s.wakes with
      | some due => finishAll fuel (s.wait due)
      | none => s

end Schedule

end NearCache
