import Telemetry.Agent.Report
import Telemetry.StopSignal

/-!
# The reporter

One generator makes a report at every tick and puts its jobs into a queue; workers take
jobs from it and send them, one at a time each. All of them listen for news of the stop
signal. The generator closes the sender when it leaves. A worker ends the send that it
is in, and takes no other job once the signal is on; what is left in the queue when the
last worker has left is thrown away. A failed send puts the polls that it carried back.

What the generator, the workers and the world outside do may interleave in any way: a
run is any list of events. An event that cannot happen where it stands changes nothing.
`step` tells with the new state what was done, so that a run leaves a list of deeds.
-/

namespace Telemetry

/-- What the generator is about. -/
inductive Generator
  /-- waits for its next tick -/
  | waiting
  /-- has jobs that are not in the queue yet -/
  | queueing (rest : List Job)
  | ended
deriving DecidableEq

/-- What a worker is about. -/
inductive Worker
  /-- waits for a job -/
  | idle
  | sending (job : Job)
  | ended
deriving DecidableEq

structure Reporter where
  settings : ReporterSettings
  ledger : PollLedger
  /-- whether reports tell the polls of the ledger -/
  takesPolls : Bool
  /-- the latest metrics -/
  snapshot : List Metric
  signal : StopSignal
  /-- what the generator and the workers have seen of the signal -/
  listener : StopListener
  generator : Generator
  /-- jobs that wait for a worker, the earliest first -/
  queue : List Job
  workers : List Worker
  /-- how sends ended that are not counted yet, the earliest first -/
  outcomes : List SendOutcome
  totals : ReportTotals

namespace Reporter

/-- How the generator and the workers listen. -/
def attention : Attention := .edge

inductive Event
  /-- the collector records a poll -/
  | poll
  /-- the collector publishes a snapshot -/
  | publish (snapshot : List Metric)
  /-- the stop signal is switched on -/
  | trigger
  /-- the owner of the stop signal leaves -/
  | abandon
  /-- the generator hears its ticker -/
  | tick
  /-- the generator puts a job into the queue -/
  | enqueue
  /-- the generator hears of the stop signal -/
  | leave
  /-- a worker takes a job from the queue -/
  | take (worker : Nat)
  /-- a worker hears of the stop signal, or that the queue has come to its end -/
  | retire (worker : Nat)
  /-- a send ends -/
  | conclude (worker : Nat) (outcome : SendOutcome)
  /-- the end of a send is counted -/
  | count

/-- What a step did. -/
inductive Deed
  | polled
  | queued (job : Job)
  | began (worker : Nat) (job : Job)
  | ended (worker : Nat) (job : Job) (outcome : SendOutcome)
  | discarded (job : Job)
  /-- the sender was closed -/
  | closed

/-- A reporter at its beginning. -/
def start (settings : ReporterSettings) (ledger : PollLedger) (takesPolls : Bool)
    (snapshot : List Metric) (signal : StopSignal) (listener : StopListener) : Reporter :=
  { settings := settings
    ledger := ledger
    takesPolls := takesPolls
    snapshot := snapshot
    signal := signal
    listener := listener
    generator := .waiting
    queue := []
    workers := List.replicate settings.workers .idle
    outcomes := []
    totals := .zero }

/-- Whether there is news of the stop signal. -/
def hears (r : Reporter) : Bool := attention.hears r.signal r.listener

def workersEnded (r : Reporter) : Bool := r.workers.all (· = .ended)

/-- Whether nothing is left to happen. -/
def isOver (r : Reporter) : Bool :=
  r.generator = .ended && r.workersEnded && r.outcomes.isEmpty

/-- How many sends are under way. -/
def inFlight (r : Reporter) : Nat :=
  r.workers.countP fun w => w matches .sending _

/-- Whether the queue takes another job. A worker that waits makes room for one. -/
def hasRoom (r : Reporter) : Bool :=
  r.queue.length < r.settings.capacity + r.workers.count .idle

/-- The report of this moment and the ledger after it. -/
def report (r : Reporter) : PollLedger × List Metric :=
  if r.takesPolls then
    let (ledger, polls) := r.ledger.take
    (ledger, Report.withPolls r.snapshot polls)
  else (r.ledger, r.snapshot)

/-- The generator has a report to send, unless there is nothing in it. -/
def tick (r : Reporter) : Reporter :=
  if r.snapshot.isEmpty then r
  else
    let (ledger, report) := r.report
    { r with
      ledger := ledger
      generator :=
        if report.isEmpty then .waiting else .queueing (Report.jobs r.settings.isBatch report) }

/-- The generator leaves with jobs that are not in the queue. -/
def leaveWith (r : Reporter) (rest : List Job) : Reporter × List Deed :=
  ({ r with generator := .ended }, rest.map .discarded ++ [.closed])

/-- A worker leaves. The last one takes the queue with it. -/
def retire (r : Reporter) (worker : Nat) : Reporter × List Deed :=
  let r := { r with workers := r.workers.set worker .ended }
  if r.workersEnded then ({ r with queue := [] }, r.queue.map .discarded) else (r, [])

/-- A worker gets a job, which it sends unless the signal is on. -/
def take (r : Reporter) (worker : Nat) (job : Job) (rest : List Job) : Reporter × List Deed :=
  let r := { r with queue := rest }
  if r.signal.on then
    let (r, deeds) := r.retire worker
    (r, .discarded job :: deeds)
  else ({ r with workers := r.workers.set worker (.sending job) }, [.began worker job])

/-- The send of a job ends. -/
def conclude (r : Reporter) (worker : Nat) (job : Job) (outcome : SendOutcome) :
    Reporter × List Deed :=
  ({ r with
      workers := r.workers.set worker .idle
      ledger :=
        if r.takesPolls && !outcome.isSuccess then r.ledger.restore job.polls else r.ledger
      outcomes := r.outcomes ++ [outcome] },
    [.ended worker job outcome])

def step (r : Reporter) : Event → Reporter × List Deed
  | .poll => ({ r with ledger := r.ledger.record.1 }, [.polled])
  | .publish snapshot => ({ r with snapshot := snapshot }, [])
  | .trigger => ({ r with signal := r.signal.trigger }, [])
  | .abandon => ({ r with signal := r.signal.abandon }, [])
  | .tick => (if r.generator = .waiting then r.tick else r, [])
  | .enqueue =>
    match r.generator with
    | .queueing [] => ({ r with generator := .waiting }, [])
    | .queueing (job :: rest) =>
      if r.workersEnded then r.leaveWith (job :: rest)
      else if r.hasRoom then
        ({ r with
            queue := r.queue ++ [job]
            generator := if rest.isEmpty then .waiting else .queueing rest },
          [.queued job])
      else (r, [])
    | _ => (r, [])
  | .leave =>
    match r.hears, r.generator with
    | true, .waiting => r.leaveWith []
    | true, .queueing rest => r.leaveWith rest
    | _, _ => (r, [])
  | .take worker =>
    match r.workers[worker]?, r.queue with
    | some .idle, job :: rest => r.take worker job rest
    | _, _ => (r, [])
  | .retire worker =>
    if r.workers[worker]? = some .idle &&
        (r.hears || (r.generator = .ended && r.queue.isEmpty)) then
      r.retire worker
    else (r, [])
  | .conclude worker outcome =>
    match r.workers[worker]? with
    | some (.sending job) => r.conclude worker job outcome
    | _ => (r, [])
  | .count =>
    match r.outcomes with
    | outcome :: rest => ({ r with outcomes := rest, totals := r.totals.record outcome }, [])
    | [] => (r, [])

/-- A run: the state after some events, and all that was done. -/
def run (r : Reporter) (events : List Event) : Reporter × List Deed :=
  events.foldl
    (fun (r, deeds) e =>
      let (r, more) := step r e
      (r, deeds ++ more))
    (r, [])

/-! ## What is to happen at once -/

/-- Jobs that the generator has not put into the queue yet. -/
def unqueued (r : Reporter) : List Job :=
  match r.generator with
  | .queueing rest => rest
  | _ => []

/-- The event that is to happen at once, if nothing from outside has to come first: of
these that can happen, the one that stands first. -/
def next? (r : Reporter) : Option Event :=
  let idle := r.workers.findIdx? (· = .idle)
  let worker := idle.getD 0
  let isLeft := r.generator = .ended
  let candidates : List (Bool × Event) :=
    [ (r.hears && !isLeft, .leave),
      (idle.isSome && (r.hears || (isLeft && r.queue.isEmpty)), .retire worker),
      (idle.isSome && !r.queue.isEmpty, .take worker),
      (!r.unqueued.isEmpty && (r.workersEnded || r.hasRoom), .enqueue),
      (!r.outcomes.isEmpty, .count) ]
  (candidates.find? (·.1)).map (·.2)

/-- At most this many events happen at once. -/
def unrest (r : Reporter) : Nat :=
  4 * (r.unqueued.length + r.queue.length + r.inFlight) + r.workers.length +
    r.outcomes.length + 2

def settleWithin (r : Reporter) (deeds : List Deed) : Nat → Reporter × List Deed
  | 0 => (r, deeds)
  | n + 1 =>
    match r.next? with
    | some e =>
      let (r, more) := r.step e
      r.settleWithin (deeds ++ more) n
    | none => (r, deeds)

/-- An event from outside and all that it leads to at once. -/
def hear (r : Reporter) (e : Event) : Reporter × List Deed :=
  let (r, deeds) := r.step e
  r.settleWithin deeds r.unrest

end Reporter

end Telemetry
