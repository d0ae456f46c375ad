import Telemetry.StopSignal
import Telemetry.Store.Dumping
import Telemetry.Ticker

/-!
# The snapshot loop

Dumps a store at regular intervals and once more when the stop signal is on. A store
that dumps each write is only dumped at the end; one without a snapshot file needs no
loop. The first tick of the ticker is not used.
-/

namespace Telemetry

structure SnapshotLoop where
  /-- nothing if there are no dumps before the end -/
  ticker : Option Ticker
  listener : StopListener
  running : Bool
deriving DecidableEq, Repr

namespace SnapshotLoop

def attention : Attention := .level

/-- The loop at its beginning. There is no ticker without an interval. -/
def start (s : DumpingStore) (interval now : Nanos) (listener : StopListener) : SnapshotLoop :=
  if s.snapshot.isNone then ⟨none, listener, false⟩
  else if s.dumpsWrites then ⟨none, listener, true⟩
  else if interval = 0 then ⟨none, listener, false⟩
  else ⟨some (Ticker.start interval now).advance, listener, true⟩

/-- A tick: one dump, whether or not it succeeds. -/
def tick (l : SnapshotLoop) (s : DumpingStore) : SnapshotLoop × DumpingStore :=
  ({ l with ticker := l.ticker.map Ticker.advance }, (DumpingStore.persist s).2)

/-- How many ticks are due up to a moment. -/
def dueCount (l : SnapshotLoop) (moment : Nanos) : Nat :=
  if l.running then (l.ticker.map fun t => t.dueCount moment).getD 0 else 0

/-- All ticks that are due up to a moment. -/
def runUntil (l : SnapshotLoop) (s : DumpingStore) (moment : Nanos) :
    SnapshotLoop × DumpingStore :=
  (List.range (l.dueCount moment)).foldl (fun (l, s) _ => l.tick s) (l, s)

/-- The loop looks at the stop signal: if it is on, there is one last dump. -/
def listen (l : SnapshotLoop) (s : DumpingStore) (signal : StopSignal) :
    SnapshotLoop × DumpingStore :=
  if l.running && attention.hears signal l.listener then
    ({ l with running := false }, (DumpingStore.persist s).2)
  else (l, s)

end SnapshotLoop

end Telemetry
