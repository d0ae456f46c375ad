import Telemetry.Agent.Reporter
import Telemetry.Ticker

/-!
# A reporter on a simulated clock

The reporter runs with a scripted sender, each of whose sends takes the same time. At
each moment everything comes to rest before the clock goes on to the next tick or the
next end of a send. Of two that are due at the same moment, the one that was set up
first comes first.
-/

namespace Telemetry

/-- A sender that does what it is told. -/
structure ScriptedSender where
  /-- how long a send takes -/
  delay : Nanos
  /-- the faults of successive sends, as they end; those after that end well -/
  script : List (Option Fault)
  /-- the names that fail when they are sent alone -/
  failing : List String
  /-- what comes back for a batch -/
  reply : List Metric → List Metric
  /-- whether a send fails once the sender is closed -/
  refusesClosed : Bool

namespace ScriptedSender

/-- The end of a send. -/
def conclude (s : ScriptedSender) (job : Job) : SendOutcome × ScriptedSender :=
  let fails (m : Metric) : Bool := m.name ∈ s.failing
  match job, s.script with
  | .single m, script =>
    if fails m then (.failed (.network m.name), s)
    else
      match script with
      | some f :: rest => (.failed f, { s with script := rest })
      | none :: rest => (.single m, { s with script := rest })
      | [] => (.single m, s)
  | .batch _, some f :: rest => (.failed f, { s with script := rest })
  | .batch ms, none :: rest => (.batch (s.reply ms), { s with script := rest })
  | .batch ms, [] => (.batch (s.reply ms), s)

end ScriptedSender

/-- How a send looks from outside. -/
inductive SendMark
  | succeeded
  | failed
  /-- the sender was closed before -/
  | refused
deriving DecidableEq

/-- A send that has ended. -/
structure SendRecord where
  begun : Nanos
  job : Job
  mark : SendMark

/-- A send under way. -/
structure OpenSend where
  begun : Nanos
  worker : Nat
  job : Job

structure ReportingRun where
  now : Nanos
  reporter : Reporter
  ticker : Ticker
  /-- since when the generator waits for its ticker -/
  waitingSince : Nanos
  sender : ScriptedSender
  /-- the sends under way, the earliest first -/
  sends : List OpenSend
  /-- the sends that have ended, the latest first -/
  log : List SendRecord
  /-- when the sender was closed, the latest first -/
  closings : List Nanos
  /-- how many sends were under way at most -/
  mostInFlight : Nat
  /-- when the reporter came to its end -/
  endedAt : Option Nanos

namespace ReportingRun

def start (reporter : Reporter) (sender : ScriptedSender) : ReportingRun :=
  { now := 0
    reporter := reporter
    ticker := (Ticker.start reporter.settings.interval 0).advance
    waitingSince := 0
    sender := sender
    sends := []
    log := []
    closings := []
    mostInFlight := 0
    endedAt := none }

/-- Notes what was done. -/
def note (r : ReportingRun) : Reporter.Deed → ReportingRun
  | .began worker job =>
    let sends := r.sends ++ [⟨r.now, worker, job⟩]
    { r with sends := sends, mostInFlight := max r.mostInFlight sends.length }
  | .closed => { r with closings := r.now :: r.closings }
  | _ => r

def step (r : ReportingRun) (e : Reporter.Event) : ReportingRun :=
  let wasWaiting := r.reporter.generator = .waiting
  let (reporter, deeds) := r.reporter.step e
  let waits := reporter.generator = .waiting && (!wasWaiting || e matches .tick)
  let r := deeds.foldl note { r with reporter := reporter }
  { r with
    waitingSince := if waits then r.now else r.waitingSince
    endedAt := if r.endedAt.isNone && reporter.isOver then some r.now else r.endedAt }

/-- Ends a send. -/
def conclude (r : ReportingRun) (s : OpenSend) : ReportingRun :=
  let isRefused := r.sender.refusesClosed && r.closings.any (· ≤ s.begun)
  let (outcome, sender) :=
    if isRefused then (.failed .closed, r.sender) else r.sender.conclude s.job
  let mark : SendMark :=
    if isRefused then .refused else if outcome.isSuccess then .succeeded else .failed
  let r :=
    { r with
      sender := sender
      sends := r.sends.filter fun o => o.worker ≠ s.worker
      log := ⟨s.begun, s.job, mark⟩ :: r.log }
  r.step (.conclude s.worker outcome)

/-- Lets everything happen that is to happen at once. A send that takes no time ends
before anything else. -/
def settleWithin (r : ReportingRun) : Nat → ReportingRun
  | 0 => r
  | n + 1 =>
    match r.sends, r.sender.delay with
    | s :: _, 0 => settleWithin (r.conclude s) n
    | _, _ =>
      match r.reporter.next? with
      | some e => settleWithin (r.step e) n
      | none => r

def settle (r : ReportingRun) : ReportingRun := r.settleWithin r.reporter.unrest

/-! ## Going on in time -/

/-- Something for which the clock is set. -/
structure Alarm where
  due : Nanos
  /-- when it was set -/
  since : Nanos
  /-- the send that ends, or a tick -/
  send : Option OpenSend

def Alarm.before (a b : Alarm) : Bool := a.due < b.due || (a.due = b.due && a.since < b.since)

/-- The alarm that comes first, the first one of several that come together. -/
def Alarm.earliest : List Alarm → Option Alarm
  | [] => none
  | a :: rest =>
    match earliest rest with
    | some b => if b.before a then some b else some a
    | none => some a

def alarms (r : ReportingRun) : List Alarm :=
  let ticks :=
    if r.reporter.generator = .waiting && 0 < r.ticker.interval then
      [⟨r.ticker.next, r.waitingSince, none⟩]
    else []
  ticks ++ r.sends.map fun s => ⟨s.begun + r.sender.delay, s.begun, some s⟩

/-- The clock goes on to an alarm. -/
def fire (r : ReportingRun) (a : Alarm) : ReportingRun :=
  let r := { r with now := max r.now a.due }
  settle <|
    match a.send with
    | none => step { r with ticker := r.ticker.advance } .tick
    | some s => r.conclude s

/-- At most this many alarms come before a moment. -/
def alarmCount (r : ReportingRun) (moment : Nanos) : Nat :=
  (r.ticker.dueCount moment + 1) * (r.reporter.snapshot.length + 2) + r.reporter.unqueued.length +
    r.reporter.queue.length + r.sends.length

def runWithin (r : ReportingRun) (moment : Nanos) : Nat → ReportingRun
  | 0 => r
  | n + 1 =>
    match Alarm.earliest r.alarms with
    | some a => if a.due < moment then runWithin (r.fire a) moment n else r
    | none => r

/-- Lets the clock go on to a moment; what is due at that moment is still to come. -/
def runUntil (r : ReportingRun) (moment : Nanos) : ReportingRun :=
  let r := r.runWithin moment (r.alarmCount moment)
  { r with now := max r.now moment }

/-- Something happens outside. -/
def happen (r : ReportingRun) (e : Reporter.Event) : ReportingRun := (r.step e).settle

/-- Waits for the end, for so long at most. The clock is then at the end, or where
waiting ended. -/
def finish (r : ReportingRun) (patience : Nanos) : ReportingRun :=
  let after := r.runUntil (r.now + patience)
  match after.endedAt with
  | some moment => { after with now := max r.now moment }
  | none => after

end ReportingRun

end Telemetry
