import Telemetry.Server.Storage

/-!
# The storage of a server on a simulated clock

The storage with its two background tasks, the one that checks the durable store and the
one that dumps the memory. Time passes only when it is let pass.
-/

namespace Telemetry

structure StorageRun where
  now : Nanos
  storage : Storage
  /-- the background tasks, once they are started -/
  tasks : Option (MonitorLoop × SnapshotLoop)

namespace StorageRun

/-- Starts the background tasks. -/
def startTasks (r : StorageRun) (settings : ServerSettings) : StorageRun :=
  let listener := r.storage.signal.subscribe
  { r with
    tasks := some
      ( MonitorLoop.start r.storage.client.isSome (Nanos.ofSeconds settings.dbCheckIntervalSecs)
          r.now listener,
        SnapshotLoop.start r.storage.memory (Nanos.ofSeconds settings.storeIntervalSecs) r.now
          listener ) }

/-- Lets the tasks do what is due and hear what there is to hear. -/
def settle (r : StorageRun) : StorageRun :=
  match r.tasks with
  | none => r
  | some (monitor, snapshots) =>
    let checks := if monitor.running then monitor.ticker.dueCount r.now else 0
    let (monitor, s) := (List.range checks).foldl
      (fun ((monitor : MonitorLoop), (s : Storage)) _ => (monitor.tick, s.check))
      (monitor, r.storage)
    let (snapshots, memory) := snapshots.runUntil s.memory r.now
    let (snapshots, memory) := snapshots.listen memory s.signal
    { r with
      storage := { s with memory := memory }
      tasks := some (monitor.listen s.signal, snapshots) }

def advance (r : StorageRun) (span : Nanos) : StorageRun := settle { r with now := r.now + span }

/-- Switches the stop signal on. -/
def stop (r : StorageRun) : StorageRun :=
  settle { r with storage := { r.storage with signal := r.storage.signal.trigger } }

/-- Which of the tasks have ended. -/
def ended (r : StorageRun) : List Bool :=
  match r.tasks with
  | none => []
  | some (monitor, snapshots) => [!monitor.running, !snapshots.running]

end StorageRun

end Telemetry
