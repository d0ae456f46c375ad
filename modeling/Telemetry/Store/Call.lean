import Telemetry.Store.Table

/-!
# What a store can be asked

Every store answers the same calls, each with a reply of its own type or a fault.
`update` and `updateMany` write metrics as they are; `mergeMany` folds a batch into what
is stored. A store is a function from calls to replies in some monad, so that stores
can be put around one another.
-/

namespace Telemetry

inductive StoreCall
  /-- the metric of a name -/
  | get (name : String)
  /-- the metrics of those names that have one -/
  | getMany (names : List String)
  /-- writes a metric whose name is not taken -/
  | create (metric : Metric)
  /-- writes a metric over what there is -/
  | update (metric : Metric)
  | updateMany (metrics : List Metric)
  /-- folds a batch into what is stored and tells the results -/
  | mergeMany (batch : List Metric)
  /-- asks whether the store can be reached -/
  | ping
  /-- all metrics in the order of their names -/
  | list
deriving DecidableEq

namespace StoreCall

/-- The type of the reply to a call. -/
abbrev Reply : StoreCall → Type
  | .get _ => Option Metric
  | .getMany _ => Table
  | .create _ | .update _ | .updateMany _ | .ping => Unit
  | .mergeMany _ | .list => List Metric

/-- The word for a call in messages. -/
def word : StoreCall → String
  | .get _ => "get"
  | .getMany _ => "get_many"
  | .create _ => "create"
  | .update _ => "update"
  | .updateMany _ => "update_many"
  | .mergeMany _ => "merge_many"
  | .ping => "ping"
  | .list => "list"

end StoreCall

/-- A store whose calls run in `m`. -/
abbrev Store (m : Type → Type) := (c : StoreCall) → m (Except Fault c.Reply)

/-- Merging by three smaller steps: what is stored under the names of the batch is read,
the batch is folded into it, and the results are written. -/
def mergeBySteps {m : Type → Type} [Monad m] (store : Store m) (batch : List Metric) :
    m (Except Fault (List Metric)) := do
  match ← store (.getMany (uniqueNames batch)) with
  | .error f => pure (.error f)
  | .ok stored =>
    match mergeBatch stored.get? batch with
    | .error f => pure (.error f)
    | .ok merged =>
      match ← store (.updateMany merged) with
      | .error f => pure (.error f)
      | .ok () => pure (.ok merged)

end Telemetry
