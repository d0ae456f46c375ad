import Telemetry.Postgres.Merge
import Telemetry.Postgres.Migration
import Telemetry.Store.Memory

/-!
# A store in a database

Answers the calls of a store by talks with a database. What is to be written is checked
before anything is asked. Until the tables are known to be there, every talk begins by
bringing them up to date.
-/

namespace Telemetry.Postgres

/-- What a talk does with the reply to a look-up. -/
def readRows {α : Type} (operation : String) (s : Statement)
    (go : List (String × Row) → Except Fault α) : Talk (Except Fault α) :=
  .ask s fun
    | .rows rows => .done (go rows)
    | .failed f => .done (.error (f.fault operation))
    | _ => .done (.error (Failure.rowNotFound.fault operation))

/-- Writes metrics in one transaction. -/
def writeAll (ms : List Metric) : Talk (Except Fault Unit) :=
  .ask .begin fun
    | .failed f => .done (.error (f.fault "트랜잭션 시작"))
    | _ => Merge.write () ms

/-- The metric in the first of some rows. -/
def firstMetric : List (String × Row) → Except Fault (Option Metric)
  | [] => .ok none
  | r :: _ => (r.2.toMetric r.1).map some

/-- The talk of a call, once its arguments are checked and the tables are there. -/
def talk : (c : StoreCall) → Talk (Except Fault c.Reply)
  | .get name => readRows "메트릭 조회" (.find name) firstMetric
  | .getMany names =>
    readRows "메트릭 일괄 조회" (.findAll names) fun rows =>
      (Merge.metricsOf rows).map Table.ofMetrics
  | .create m => Talk.perform "메트릭 생성" (.insert m)
  | .update m => Talk.perform "메트릭 upsert" (.upsert m)
  | .updateMany ms => writeAll ms
  | .mergeMany batch => Merge.merge batch
  | .ping => Talk.perform "ping" .selectOne
  | .list => readRows "메트릭 목록 조회" .all Merge.metricsOf

/-- What a call is answered without the database. -/
def withoutDatabase : (c : StoreCall) → Option (Except Fault c.Reply)
  | .getMany [] => some (.ok Table.empty)
  | .create m | .update m =>
    match m.validate with
    | .error f => some (.error f)
    | .ok () => none
  | .updateMany ms =>
    match validateAll ms with
    | .error f => some (.error f)
    | .ok () => none
  | .mergeMany batch =>
    match validateAll batch with
    | .error f => some (.error f)
    | .ok () => if batch.isEmpty then some (.ok []) else none
  | _ => none

namespace Client

def ofServer (server : Server) : Client := ⟨server, false, false⟩

/-- Brings the tables up to date unless they are known to be there. -/
def ensureTables : StateM Client (Except Fault Unit) := do
  if (← get).ready then pure (.ok ())
  else
    match ← hold Migration.migrate with
    | .error f => pure (.error f)
    | .ok () => do
      modify fun c => { c with ready := true }
      pure (.ok ())

/-- Goes on once the tables are there. -/
def prepared {α : Type} (go : StateM Client (Except Fault α)) : StateM Client (Except Fault α) := do
  match ← ensureTables with
  | .error f => pure (.error f)
  | .ok () => go

/-- Whether the database can be reached, and its tables are there. -/
def ping : StateM Client (Except Fault Unit) := do
  match ← hold (talk .ping) with
  | .error f => pure (.error f)
  | .ok () => ensureTables

/-- The store. -/
def answer : Store (StateM Client)
  | .ping => ping
  | c =>
    match withoutDatabase c with
    | some reply => pure reply
    | none => prepared (hold (talk c))

def close (c : Client) : Client := { c with closed := true }

end Client

end Telemetry.Postgres
