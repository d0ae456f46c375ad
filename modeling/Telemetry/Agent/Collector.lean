import Telemetry.Agent.PollLedger
import Telemetry.Agent.Readings
import Telemetry.StopSignal

/-!
# The polling loop

The collector reads the machine at every tick and publishes the metrics as a whole.
Publishing does not use up the polls: the ledger is shared with the reporter, who takes
them. The loop ends with news of the stop signal.
-/

namespace Telemetry

/-- The polling loop between two of its steps. -/
structure Collector where
  ledger : PollLedger
  /-- what is published, if anything -/
  published : Option (List Metric)
  listener : StopListener
  running : Bool

namespace Collector

def attention : Attention := .edge

def start (ledger : PollLedger) (listener : StopListener) : Collector :=
  ⟨ledger, none, listener, true⟩

/-- One poll: the ledger after it, and its metrics. -/
def collect (ledger : PollLedger) (machine : Readings) : PollLedger × List Metric :=
  let (ledger, polls) := ledger.record
  (ledger, { machine with pollCount := polls }.metrics)

/-- A tick of the loop. -/
def tick (c : Collector) (machine : Readings) : Collector :=
  if c.running then
    let (ledger, metrics) := collect c.ledger machine
    { c with ledger := ledger, published := some metrics }
  else c

/-- The loop looks at the stop signal. -/
def listen (c : Collector) (signal : StopSignal) : Collector :=
  if attention.hears signal c.listener then { c with running := false } else c

/-- How many polls a snapshot reports. -/
def polls (snapshot : List Metric) : Option Int64 :=
  (snapshot.find? fun m => m.name = pollCountName).bind fun m => m.delta

end Collector

end Telemetry
