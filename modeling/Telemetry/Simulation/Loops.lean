import Telemetry.Store.Failover
import Telemetry.Store.SnapshotLoop

/-!
# Background loops on a simulated clock

A store with its background loop at a moment. Time passes only when it is let pass; the
loop then does all that was due, one tick after another.
-/

namespace Telemetry

/-- A loop and the signal that ends it. -/
structure Attended (α : Type) where
  loop : α
  signal : StopSignal

/-- A store in memory with its snapshot loop. -/
structure MemoryRun where
  now : Nanos
  store : DumpingStore
  loop : Option (Attended SnapshotLoop)
  /-- the store of the loop, if another one took its place since -/
  loopStore : Option DumpingStore

namespace MemoryRun

/-- Lets the loop do what is due and hear what there is to hear. -/
def settle (r : MemoryRun) : MemoryRun :=
  match r.loop with
  | none => r
  | some ⟨loop, signal⟩ =>
    let s := { r.loopStore.getD r.store with files := r.store.files }
    let (loop, s) := loop.runUntil s r.now
    let (loop, s) := loop.listen s signal
    let r := { r with loop := some ⟨loop, signal⟩ }
    match r.loopStore with
    | none => { r with store := s }
    | some _ => { r with loopStore := some s, store := { r.store with files := s.files } }

def advance (r : MemoryRun) (span : Nanos) : MemoryRun := settle { r with now := r.now + span }

/-- Starts a loop over the present store. -/
def startLoop (r : MemoryRun) (interval : Nanos) : MemoryRun :=
  let signal := StopSignal.fresh
  { r with
    loop := some ⟨SnapshotLoop.start r.store interval r.now signal.subscribe, signal⟩
    loopStore := none }

/-- Something happens to the signal of the loop. -/
def signal (r : MemoryRun) (change : StopSignal → StopSignal) : MemoryRun :=
  settle { r with loop := r.loop.map fun l => { l with signal := change l.signal } }

/-- Another store takes the place of the present one. -/
def replace (r : MemoryRun) (s : DumpingStore) : MemoryRun :=
  { r with
    store := s
    loopStore := if r.loop.isSome && r.loopStore.isNone then some r.store else r.loopStore }

/-- Whether there is a loop that still runs. -/
def isRunning (r : MemoryRun) : Bool := r.loop.any fun l => l.loop.running

end MemoryRun

/-- Two stores of which one can be out of reach, with the loop that checks. -/
structure FailoverRun where
  now : Nanos
  durable : Table
  memory : Table
  hasDurable : Bool
  /-- the fault of asking for the durable store, if it is out of reach -/
  outage : Option Fault
  /-- how often it was asked for -/
  pings : Nat
  active : Backend
  loop : Option (Attended MonitorLoop)

namespace FailoverRun

def durableStore : Store (StateM FailoverRun)
  | .ping => fun r =>
    (match r.outage with
      | none => .ok ()
      | some f => .error f, { r with pings := r.pings + 1 })
  | c => fun r =>
    let (reply, t) := Table.answer c r.durable
    (reply, { r with durable := t })

def memoryStore : Store (StateM FailoverRun) := fun c r =>
  let (reply, t) := Table.answer c r.memory
  (reply, { r with memory := t })

def pair (r : FailoverRun) : Failover (StateM FailoverRun) :=
  ⟨if r.hasDurable then some durableStore else none, memoryStore⟩

def call : Store (StateM FailoverRun) := fun c r => r.pair.answer r.active c r

def check (r : FailoverRun) : FailoverRun :=
  let (active, r) := r.pair.check r
  { r with active := active }

/-- Both stores at the beginning, after the first check. -/
def start (hasDurable : Bool) (outage : Option Fault) : FailoverRun :=
  check ⟨0, Table.empty, Table.empty, hasDurable, outage, 0, .memory, none⟩

/-- One tick of the loop. -/
def tick (r : FailoverRun) : FailoverRun :=
  { r.check with loop := r.loop.map fun l => { l with loop := l.loop.tick } }

/-- Lets the loop do what is due and hear what there is to hear. -/
def settle (r : FailoverRun) : FailoverRun :=
  match r.loop with
  | none => r
  | some ⟨loop, _⟩ =>
    let count := if loop.running then loop.ticker.dueCount r.now else 0
    let r := (List.range count).foldl (fun r _ => r.tick) r
    { r with loop := r.loop.map fun l => { l with loop := l.loop.listen l.signal } }

def advance (r : FailoverRun) (span : Nanos) : FailoverRun :=
  settle { r with now := r.now + span }

def startLoop (r : FailoverRun) (interval : Nanos) : FailoverRun :=
  let signal := StopSignal.fresh
  { r with
    loop := some ⟨MonitorLoop.start r.hasDurable interval r.now signal.subscribe, signal⟩ }

/-- Something happens to the signal of the loop. -/
def signal (r : FailoverRun) (change : StopSignal → StopSignal) : FailoverRun :=
  settle { r with loop := r.loop.map fun l => { l with signal := change l.signal } }

def isRunning (r : FailoverRun) : Bool := r.loop.any fun l => l.loop.running

end FailoverRun

end Telemetry
