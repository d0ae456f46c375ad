import Telemetry.Agent.PollLedger
import Telemetry.Agent.Readings
import Telemetry.Duration
import Telemetry.Sender.Basic
import Telemetry.Settings.Agent

/-!
# Reports

A report is a snapshot of the metrics in which the number of polls is replaced by the
polls that the server has not heard of. It goes out as one job, or as one job for each
metric. A job carries the polls that its metrics tell, so that they can be put back if
it fails.
-/

namespace Telemetry

/-- What goes out in one request. -/
inductive Job
  | single (metric : Metric)
  | batch (metrics : List Metric)
deriving DecidableEq

namespace Job

def metrics : Job → List Metric
  | .single m => [m]
  | .batch ms => ms

/-- The polls that a job carries. -/
def polls (j : Job) : Int64 :=
  ((j.metrics.filter fun m => m.name = pollCountName).filterMap fun m => m.delta).sum

/-- Sends a job. -/
def send {m : Type → Type} [Monad m] (j : Job) (sender : MetricSender m) : m SendOutcome := do
  match j with
  | .single metric => pure (.ofSingle (← sender.single metric))
  | .batch metrics => pure (.ofBatch (← sender.batch metrics))

end Job

namespace Report

/-- A snapshot that tells the given polls instead of its own, or none if there are
none. -/
def withPolls (snapshot : List Metric) (polls : Int64) : List Metric :=
  (snapshot.filter fun m => m.name ≠ pollCountName) ++
    if 0 < polls then [.counter pollCountName polls] else []

/-- The jobs that a report is sent as. -/
def jobs (isBatch : Bool) (report : List Metric) : List Job :=
  if isBatch then [.batch report] else report.map .single

end Report

/-- How reports are sent. -/
structure ReporterSettings where
  interval : Nanos
  /-- how many sends may be under way at once -/
  workers : Nat
  /-- whether a report is one job -/
  isBatch : Bool
  /-- how many jobs may wait for a worker -/
  capacity : Nat
deriving DecidableEq, Repr

namespace ReporterSettings

/-- What the settings of an agent mean for its reports. -/
def ofAgent (s : AgentSettings) : ReporterSettings :=
  ⟨Nanos.ofSeconds s.reportIntervalSecs, max s.rateLimit 1, s.batch, 1024⟩

def standard : ReporterSettings := ofAgent AgentSettings.standard

end ReporterSettings

/-- How the sends of a reporter ended, in numbers. -/
structure ReportTotals where
  sent : Nat
  failed : Nat
  /-- how many metrics came back -/
  metrics : Nat
deriving DecidableEq, Repr

namespace ReportTotals

def zero : ReportTotals := ⟨0, 0, 0⟩

def record (t : ReportTotals) (outcome : SendOutcome) : ReportTotals :=
  if outcome.isSuccess then
    { t with sent := t.sent + 1, metrics := t.metrics + outcome.metricCount }
  else { t with failed := t.failed + 1 }

end ReportTotals

end Telemetry
