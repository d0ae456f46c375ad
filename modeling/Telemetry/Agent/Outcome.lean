import Telemetry.Metric

/-!
# How a send ended
-/

namespace Telemetry

inductive SendOutcome
  /-- one metric was sent, and this came back -/
  | single (metric : Metric)
  /-- a batch was sent, and these came back -/
  | batch (metrics : List Metric)
  | failed (fault : Fault)

namespace SendOutcome

def isSuccess : SendOutcome → Bool
  | .failed _ => false
  | _ => true

/-- How many metrics came back. -/
def metricCount : SendOutcome → Nat
  | .single _ => 1
  | .batch metrics => metrics.length
  | .failed _ => 0

end SendOutcome

end Telemetry
