import Std.Async.Select
import Std.Sync.Channel
import Telemetry.Agent.Collector
import Telemetry.Agent.Machine
import Telemetry.Agent.Plan
import Telemetry.Agent.Reporter
import Telemetry.Program.Disk
import Telemetry.Program.Ending
import Telemetry.Program.Network
import Telemetry.Ticker

/-!
# Running an agent

One loop waits for the ticks of the collector and of the reporter, for the ends of sends
and for the stop, and gives each of them to the reporter as an event. What the reporter
then does is done: sends are begun, and the sender is closed.
-/

namespace Telemetry.Program

open Std.Async

/-- An agent that runs. -/
structure RunningAgent where
  plan : AgentPlan
  logLevel : String
  sender : IO.Ref HttpSender
  /-- what comes from outside -/
  events : Std.CloseableChannel Reporter.Event

/-- What changes while an agent runs. -/
structure AgentMoment where
  reporter : Reporter
  /-- the times of the processors at the latest poll -/
  times : List Machine.Times
  polls : Ticker
  reports : Ticker

namespace RunningAgent

/-! ## The machine -/

/-- A table of the system; one that is not there is empty. -/
def table (path : String) : IO String := do
  try IO.FS.readFile path catch _ => pure ""

def tables : IO Machine.Tables := do
  pure
    { memory := ← table "/proc/meminfo"
      processors := ← table "/proc/stat"
      load := ← table "/proc/loadavg"
      uptime := ← table "/proc/uptime"
      process := ← table "/proc/self/statm" }

/-- A number from zero to one. -/
def randomReal : IO Binary64 := do
  let bytes ← IO.getRandomBytes 6
  let n := bytes.toList.foldl (fun n b => n * 256 + b.toNat) 0
  pure (Binary64.ofRatio false n (1 <<< 48))

/-- Polls the machine, and tells the reporter of it. -/
def poll (m : AgentMoment) : IO (AgentMoment × List Reporter.Event) := do
  let tables ← tables
  let readings := Machine.readings tables m.times (← randomReal)
  let (_, snapshot) := Collector.collect m.reporter.ledger readings
  pure ({ m with times := Machine.timesOf tables.processors }, [.poll, .publish snapshot])

/-! ## Sending -/

/-- What an envelope needs anew. -/
def seed : IO EnvelopeSeed := do
  let filler ← IO.getRandomBytes 2048
  pure ⟨(← IO.getRandomBytes 32).toList, filler.toList.filter (· ≠ 0)⟩

/-- Sends a job and reports the end of it as an event. -/
def send (a : RunningAgent) (worker : Nat) (job : Job) : Async Unit := do
  let sender ← a.sender.get
  let patience := 1000 * a.plan.settings.requestTimeoutSecs
  let outcome ←
    try job.send (sender.sender (exchange sender.baseUrl patience) (liftM seed))
    catch e => pure (.failed (.network (toString e)))
  if let .failed f := outcome then showLines a.logLevel [AgentPlan.failureLine f]
  discard (a.events.send (.conclude worker outcome))

/-- Does what the reporter did. -/
def perform (a : RunningAgent) : Reporter.Deed → Async Unit
  | .began worker job => background (a.send worker job)
  | .closed => a.sender.modify HttpSender.close
  | _ => pure ()

/-- Gives an event to the reporter. -/
def hear (a : RunningAgent) (m : AgentMoment) (e : Reporter.Event) : Async AgentMoment := do
  let (reporter, deeds) := m.reporter.hear e
  deeds.forM a.perform
  pure { m with reporter := reporter }

/-! ## The loop -/

/-- When something is due next: a poll until the stop, and a report while reports are
made. -/
def due (m : AgentMoment) : List Nanos :=
  (if m.reporter.hears then [] else [m.polls.next]) ++
    (if m.reporter.generator = .waiting then [m.reports.next] else [])

/-- Waits for an event from outside, but not beyond the next tick. -/
def nextEvent (a : RunningAgent) (m : AgentMoment) : Async (Option Reporter.Event) := do
  let arrival : Selectable (Option Reporter.Event) := .case a.events.recvSelector pure
  match (due m).min? with
  | none => Selectable.one #[arrival]
  | some moment =>
    let alarm ← Selector.sleep (.ofNat (millisUntil (← IO.monoNanosNow) moment))
    Selectable.one #[arrival, .case alarm fun _ => pure none]

/-- Does what is due by now. -/
def tick (a : RunningAgent) (m : AgentMoment) : Async AgentMoment := do
  let now ← IO.monoNanosNow
  let m ←
    if !m.reporter.hears && m.polls.next ≤ now then do
      let (m, events) ← poll { m with polls := m.polls.advance }
      events.foldlM a.hear m
    else pure m
  if m.reporter.generator = .waiting && m.reports.next ≤ now then
    a.hear { m with reports := m.reports.advance } .tick
  else pure m

/-- Runs until the reporter has come to its end, and tells how its sends ended. -/
partial def loop (a : RunningAgent) (m : AgentMoment) : Async ReportTotals := do
  if m.reporter.isOver then pure m.reporter.totals
  else
    match ← a.nextEvent m with
    | some e => a.loop (← a.hear m e)
    | none => a.loop (← a.tick m)

/-- Passes the request to stop on to the loop. -/
def awaitStop (a : RunningAgent) : Async Unit := do
  let reason ← awaitStopRequest
  showLines a.logLevel [.stopping reason]
  discard (a.events.send .trigger)

/-- Runs from the start to the end. -/
def run (a : RunningAgent) : Async Unit := do
  let settings := ReporterSettings.ofAgent a.plan.settings
  showLines a.logLevel [AgentPlan.reportingLine settings]
  let now ← IO.monoNanosNow
  let signal := StopSignal.fresh
  let start : AgentMoment :=
    { reporter := .start settings .empty true [] signal signal.subscribe
      times := []
      polls := Ticker.start (Nanos.ofSeconds a.plan.settings.pollIntervalSecs) now
      reports := (Ticker.start settings.interval now).advance }
  background a.awaitStop
  let totals ← a.loop start
  showLines a.logLevel (AgentPlan.closingLines totals)

end RunningAgent

/-- Runs an agent as a command asks for it, and tells how it ended. -/
def runAgent (command : AgentCommand) : IO UInt32 := do
  let files ← readAllInto .empty command.config.toList
  let files ← readAllInto files (AgentPlan.keyFiles command files)
  let settings := AgentPlan.settings? command files
  let facing ←
    match settings with
    | .ok s => (routeTo (Endpoint.hostPort s.address)).block
    | .error _ => pure none
  let (outcome, lines) := (AgentPlan.prepare command files fun _ => facing).outcome
  showLines command.logLevel lines
  match outcome with
  | .error fault => showFault fault
  | .ok plan =>
    let a : RunningAgent :=
      ⟨plan, command.logLevel, ← IO.mkRef plan.sender, ← Std.CloseableChannel.new⟩
    a.run.block
    pure 0

end Telemetry.Program
