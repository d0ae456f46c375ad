import Telemetry.Store.Call

/-!
# A store in memory

A table that answers the calls of a store. Every call checks all that it is given
before it writes anything, so a call that fails leaves the table as it was.
-/

namespace Telemetry

/-- The first rule that one of some metrics breaks. -/
def validateAll (ms : List Metric) : Except Fault Unit := ms.forM Metric.validate

namespace Table

/-- Writes a metric whose name is not taken. -/
def create (t : Table) (m : Metric) : Except Fault Table := do
  m.validate
  if (t.get? m.name).isSome then throw (.validation (.nameTaken m.name))
  pure (t.insert m.name m)

def update (t : Table) (m : Metric) : Except Fault Table := do
  m.validate
  pure (t.insert m.name m)

/-- Writes some metrics, or none if one of them is not valid. -/
def updateMany (t : Table) (ms : List Metric) : Except Fault Table := do
  validateAll ms
  pure (t.insertAll ms)

/-- Folds a batch into the table. -/
def mergeMany (t : Table) (batch : List Metric) : Except Fault (Table × List Metric) := do
  let merged ← mergeBatch t.get? batch
  pure (t.insertAll merged, merged)

/-- The reply and the table after a change that may have failed. -/
def keep {α : Type} (t : Table) : Except Fault (Table × α) → Except Fault α × Table
  | .ok (t, a) => (.ok a, t)
  | .error f => (.error f, t)

/-- The reply to a call, and the table after it. -/
def answer : Store (StateM Table)
  | .get name => fun t => (.ok (t.get? name), t)
  | .getMany names => fun t => (.ok (t.restrict names), t)
  | .create m => fun t => t.keep ((t.create m).map fun t => (t, ()))
  | .update m => fun t => t.keep ((t.update m).map fun t => (t, ()))
  | .updateMany ms => fun t => t.keep ((t.updateMany ms).map fun t => (t, ()))
  | .mergeMany batch => fun t => t.keep (t.mergeMany batch)
  | .ping => fun t => (.ok (), t)
  | .list => fun t => (.ok t.metrics, t)

end Table

/-- Whether a call writes to a store if it succeeds. -/
def StoreCall.writes : StoreCall → Bool
  | .create _ | .update _ | .updateMany _ | .mergeMany _ => true
  | .get _ | .getMany _ | .ping | .list => false

end Telemetry
