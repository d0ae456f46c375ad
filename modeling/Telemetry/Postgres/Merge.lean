import Telemetry.Postgres.Talk

/-!
# Merging in a database

A batch is merged in one transaction. It first takes the locks of all names, in the
order of the names, so that nobody changes a metric between its being read and its
being written; then it reads what is stored, folds the batch into it and writes the
results.
-/

namespace Telemetry.Postgres.Merge

/-- Gives the transaction up. -/
def abandon {α : Type} (fault : Fault) : Talk (Except Fault α) :=
  .ask .rollback fun _ => .done (.error fault)

/-- Writes metrics, and commits; the reply is `result`. -/
def write {α : Type} (result : α) : List Metric → Talk (Except Fault α)
  | [] =>
    .ask .commit fun
      | .failed f => abandon (f.fault "트랜잭션 커밋")
      | _ => .done (.ok result)
  | m :: rest =>
    .ask (.upsert m) fun
      | .failed f => abandon (f.fault "메트릭 upsert")
      | _ => write result rest

/-- The metrics in some rows, or the fault of the first that holds none. -/
def metricsOf (rows : List (String × Row)) : Except Fault (List Metric) :=
  rows.mapM fun r => r.2.toMetric r.1

/-- Folds a batch into the rows that were read. -/
def fold (batch : List Metric) (rows : List (String × Row)) : Except Fault (List Metric) := do
  let stored ← metricsOf rows
  mergeBatch (fun name => stored.find? fun m => m.name = name) batch

/-- Reads what is stored under the names of the batch, and writes the results. -/
def readAndWrite (batch : List Metric) : Talk (Except Fault (List Metric)) :=
  .ask (.findAll (uniqueNames batch)) fun
    | .failed f => abandon (f.fault "메트릭 일괄 조회")
    | .rows rows =>
      match fold batch rows with
      | .error fault => abandon fault
      | .ok merged => write merged merged
    | _ => abandon (Failure.rowNotFound.fault "메트릭 일괄 조회")

/-- Takes the locks of some names, and goes on. -/
def lockAll (batch : List Metric) : List String → Talk (Except Fault (List Metric))
  | [] => readAndWrite batch
  | name :: rest =>
    .ask (.lock (.name (lockKey name))) fun
      | .failed f => abandon (f.fault "advisory lock")
      | _ => lockAll batch rest

/-- The names of a batch in their order. -/
def lockOrder (batch : List Metric) : List String :=
  (uniqueNames batch).mergeSort fun a b => a ≤ b

/-- The transaction that merges a batch. -/
def merge (batch : List Metric) : Talk (Except Fault (List Metric)) :=
  .ask .begin fun
    | .failed f => .done (.error (f.fault "트랜잭션 시작"))
    | _ => lockAll batch (lockOrder batch)

end Telemetry.Postgres.Merge
