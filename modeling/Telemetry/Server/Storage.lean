import Telemetry.Postgres.Dsn
import Telemetry.Postgres.Store
import Telemetry.Retry.Loop
import Telemetry.Settings.Server
import Telemetry.Store.Failover
import Telemetry.Store.SnapshotLoop

/-!
# The storage of a server

A server keeps metrics in memory, with a snapshot file if its settings name one. If they
name a database, that is the durable store: its calls are retried, and it is in use
while the latest check has reached it.
-/

namespace Telemetry

structure Storage where
  memory : DumpingStore
  /-- the durable store, if there is one -/
  client : Option Postgres.Client
  policy : RetryPolicy
  active : Backend
  signal : StopSignal

namespace Storage

/-- A database that is nowhere to be reached. -/
def nowhere : Postgres.Server :=
  ⟨false, Postgres.Database.ofTables ⟨none, none⟩, [], fun _ _ => none⟩

def memoryStore : Store (StateM Storage) := fun c s =>
  let (reply, memory) := DumpingStore.call c s.memory
  (reply, { s with memory := memory })

/-- Talks with the database as one client. -/
def withClient {α : Type} (run : StateM Postgres.Client α) : StateM Storage α := fun s =>
  let (a, client) := run (s.client.getD (Postgres.Client.ofServer nowhere))
  (a, { s with client := some client })

/-- Retries take no time here, but end when the stop signal is on. -/
def surroundings : RetrySurroundings (StateM Storage) :=
  { RetrySurroundings.immediate with isStopping := fun s => (s.signal.on, s) }

def durableStore (policy : RetryPolicy) : Store (StateM Storage) :=
  policy.store surroundings fun c => withClient (Postgres.Client.answer c)

def pair (s : Storage) : Failover (StateM Storage) :=
  ⟨if s.client.isSome then some (durableStore s.policy) else none, memoryStore⟩

/-- The storage as one store. -/
def call : Store (StateM Storage) := fun c s => s.pair.answer s.active c s

/-- Looks which store is to be used from now on. -/
def check (s : Storage) : Storage :=
  let (active, s) := s.pair.check s
  { s with active := active }

/-- The store in memory that settings ask for. -/
def openMemory (settings : ServerSettings) (files : FileTree) : Except Fault DumpingStore :=
  match settings.fileStoragePath with
  | some path =>
    DumpingStore.withSnapshot files path (Nanos.ofSeconds settings.storeIntervalSecs)
      settings.restore
  | none => .ok (DumpingStore.plain files)

/-- The storage that settings ask for. The server is the one that the name of the
database leads to. -/
def build (settings : ServerSettings) (files : FileTree) (server : Postgres.Server)
    (signal : StopSignal) : Except Fault Storage := do
  let memory ← openMemory settings files
  let s : Storage := ⟨memory, none, settings.storageRetry.policy, .memory, signal⟩
  match settings.databaseDsn with
  | none => pure s
  | some dsn =>
    if Postgres.Dsn.isSound dsn then
      pure (check { s with client := some (Postgres.Client.ofServer server) })
    else throw (.config .badDsn)

/-- Ends all connections. -/
def close (s : Storage) : Storage := { s with client := s.client.map Postgres.Client.close }

end Storage

end Telemetry
