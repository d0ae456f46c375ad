import Telemetry.Metric
import Telemetry.Postgres.Failure
import Telemetry.Postgres.LockKey

/-!
# Statements and replies

All that this library ever asks of a database, and what it is answered.
-/

namespace Telemetry.Postgres

/-- What an advisory lock is on. -/
inductive LockId
  | migrations
  | name (key : LockKey)
deriving DecidableEq, Repr

inductive Statement
  | begin
  | commit
  | rollback
  /-- asks for nothing but an answer -/
  | selectOne
  /-- waits for a lock, which the transaction keeps to its end -/
  | lock (id : LockId)
  /-- makes the table of versions if it is not there -/
  | createVersions
  /-- the latest version, zero if there is none -/
  | latestVersion
  | addVersion (version : Nat)
  /-- makes the table of metrics if it is not there -/
  | createMetrics
  | find (name : String)
  | findAll (names : List String)
  | all
  | insert (metric : Metric)
  | upsert (metric : Metric)
deriving DecidableEq

/-- A row of the table of metrics, without its name. -/
structure Row where
  kind : String
  value : Option Binary64
  delta : Option Int64
deriving DecidableEq, Repr

def Row.ofMetric (m : Metric) : Row := ⟨m.kind.text, m.value, m.delta⟩

/-- The metric in a row. A row can hold what is none. -/
def Row.toMetric (name : String) (r : Row) : Except Fault Metric :=
  match Kind.ofText? r.kind with
  | none => .error (.validation (.unknownKind r.kind))
  | some kind =>
    let m : Metric := ⟨name, kind, r.value, r.delta⟩
    m.validate.map fun _ => m

inductive Reply
  | done
  | version (latest : Nat)
  | rows (rows : List (String × Row))
  | failed (failure : Failure)
deriving DecidableEq

end Telemetry.Postgres
