import Telemetry.Metric

/-!
# Metrics as messages of remote calls

A message names its kind by a number and may hold any combination of value and
increment. It becomes a metric only if the number is that of a kind and the metric may
be stored.
-/

namespace Telemetry

structure MetricMessage where
  id : String
  /-- a number of thirty-two bits with a sign -/
  kind : Int
  value : Option Binary64
  delta : Option Int64
deriving DecidableEq

/-- The number of a kind. -/
def Kind.number : Kind → Int
  | .gauge => 1
  | .counter => 2

def Kind.ofNumber? (n : Int) : Option Kind :=
  if n = 1 then some .gauge else if n = 2 then some .counter else none

namespace MetricMessage

def ofMetric (m : Metric) : MetricMessage := ⟨m.name, m.kind.number, m.value, m.delta⟩

def toMetric (p : MetricMessage) : Except Fault Metric :=
  match Kind.ofNumber? p.kind with
  | none => .error (.validation (.unknownKindNumber p.kind))
  | some kind =>
    let m : Metric := ⟨p.id, kind, p.value, p.delta⟩
    m.validate.map fun _ => m

def ofMetrics (ms : List Metric) : List MetricMessage := ms.map ofMetric

/-- The metrics of a list of messages, or the fault of the first that is none. -/
def toMetrics (ps : List MetricMessage) : Except Fault (List Metric) := ps.mapM toMetric

end MetricMessage

end Telemetry
