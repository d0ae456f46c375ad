import Telemetry.Agent.Outcome

/-!
# Senders

A sender takes metrics to a server and brings back what they were merged into.
-/

namespace Telemetry

structure MetricSender (m : Type → Type) where
  single : Metric → m (Except Fault Metric)
  batch : List Metric → m (Except Fault (List Metric))

namespace SendOutcome

def ofSingle : Except Fault Metric → SendOutcome
  | .ok metric => .single metric
  | .error f => .failed f

def ofBatch : Except Fault (List Metric) → SendOutcome
  | .ok metrics => .batch metrics
  | .error f => .failed f

end SendOutcome

end Telemetry
