import Telemetry.StopSignal
import Telemetry.Store.Call
import Telemetry.Ticker

/-!
# Two stores, one of them in use

All calls go to the durable store while the latest check has reached it, and to the
memory otherwise. A check switches and copies nothing: each store keeps what was
written to it. Being asked whether it can be reached is the durable store's business
alone.
-/

namespace Telemetry

inductive Backend
  | durable
  | memory
deriving DecidableEq, Repr

def Backend.text : Backend → String
  | .durable => "durable"
  | .memory => "memory"

structure Failover (m : Type → Type) where
  durable : Option (Store m)
  memory : Store m

namespace Failover

/-- The store in use. -/
def current {m : Type → Type} (f : Failover m) (active : Backend) : Store m :=
  match active, f.durable with
  | .durable, some store => store
  | _, _ => f.memory

/-- Looks which store is to be used from now on. -/
def check {m : Type → Type} [Monad m] (f : Failover m) : m Backend :=
  match f.durable with
  | none => pure .memory
  | some store => do
    match ← store .ping with
    | .ok () => pure .durable
    | .error _ => pure .memory

/-- The fault of asking for a durable store that is not there. -/
def noDurableStore : Fault := .storageUnavailable "영구 저장소가 설정되지 않음"

def ping {m : Type → Type} [Monad m] (f : Failover m) : m (Except Fault Unit) :=
  match f.durable with
  | some store => store .ping
  | none => pure (.error noDurableStore)

/-- The pair as one store. -/
def answer {m : Type → Type} [Monad m] (f : Failover m) (active : Backend) : Store m
  | .ping => f.ping
  | c => f.current active c

end Failover

/-- The loop that checks at regular intervals. Without a durable store it has nothing to
do. The first tick of the ticker is not used. -/
structure MonitorLoop where
  ticker : Ticker
  listener : StopListener
  running : Bool
deriving DecidableEq, Repr

namespace MonitorLoop

def attention : Attention := .edge

def start (hasDurable : Bool) (interval now : Nanos) (listener : StopListener) : MonitorLoop :=
  ⟨(Ticker.start interval now).advance, listener, hasDurable && 0 < interval⟩

def tick (l : MonitorLoop) : MonitorLoop := { l with ticker := l.ticker.advance }

/-- Whether a check is due at a moment. -/
def isDue (l : MonitorLoop) (moment : Nanos) : Bool := l.running && l.ticker.next ≤ moment

def listen (l : MonitorLoop) (signal : StopSignal) : MonitorLoop :=
  if attention.hears signal l.listener then { l with running := false } else l

end MonitorLoop

end Telemetry
