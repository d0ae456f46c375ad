import Telemetry.Store.Call

/-!
# Taking in metrics

What a server does with metrics once a request is understood, over any store: updates
are merged into what is stored, and a metric is found by its kind and name.
-/

namespace Telemetry.Ingest

/-- Merges one metric. -/
def update {m : Type → Type} [Monad m] (store : Store m) (metric : Metric) :
    m (Except Fault Metric) :=
  match metric.validate with
  | .error f => pure (.error f)
  | .ok () => do
    match ← store (.mergeMany [metric]) with
    | .error f => pure (.error f)
    | .ok (merged :: _) => pure (.ok merged)
    | .ok [] => pure (.error (.internal ("병합 결과 없음: " ++ metric.name)))

/-- Merges a batch that is not empty. -/
def updateMany {m : Type → Type} [Monad m] (store : Store m) (batch : List Metric) :
    m (Except Fault (List Metric)) :=
  if batch.isEmpty then pure (.error (.validation .emptyBatch))
  else store (.mergeMany batch)

/-- The fault of asking for a metric that is not there, or not of that kind. -/
def missing (kind : Kind) (name : String) : Fault :=
  Fault.metricNotFound (kind.text ++ "/" ++ name)

/-- The metric of a kind and name. -/
def get {m : Type → Type} [Monad m] (store : Store m) (kind : Kind) (name : String) :
    m (Except Fault Metric) := do
  match ← store (.get name) with
  | .error f => pure (.error f)
  | .ok (some metric) =>
    if metric.kind = kind then pure (.ok metric) else pure (.error (missing kind name))
  | .ok none => pure (.error (missing kind name))

end Telemetry.Ingest
