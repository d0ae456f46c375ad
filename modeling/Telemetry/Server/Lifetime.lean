import Telemetry.Store.SnapshotLoop

/-!
# The life of a server

A server whose storage is in memory, from its start until every task has ended. Requests
come in until the stop signal is on; those that came in before are still served. The
loop of dumps hears the signal on its own, dumps a last time and ends. What the
requests, the loop and the dumps do may interleave in any way: a run is any list of
events, and an event that cannot happen where it stands changes nothing.
-/

namespace Telemetry

/-- What the loop of dumps is about. -/
inductive DumpLoop
  /-- waits for its ticker and for the signal -/
  | waiting
  /-- waits for the end of a dump, which may be the last -/
  | dumping (isLast : Bool)
  | ended
deriving DecidableEq, Repr

/-- A request that has come in. -/
structure OpenRequest where
  /-- its number, which is also its number as a writer -/
  writer : Nat
  call : StoreCall
  /-- the reply, once the store has given it -/
  reply : Option (Except Fault call.Reply)

/-- A request that was answered. -/
structure ServedRequest where
  call : StoreCall
  reply : Except Fault call.Reply

/-- Whether a request was answered with a success. -/
def ServedRequest.isSuccess (r : ServedRequest) : Bool := r.reply.toOption.isSome

structure ServerLife where
  store : DumpingStore
  loop : DumpLoop
  signal : StopSignal
  /-- what the loop has seen of the signal -/
  listener : StopListener
  requests : List OpenRequest
  /-- the requests that were answered, the latest first -/
  served : List ServedRequest

namespace ServerLife

/-- The number of the loop as a writer. -/
def loopWriter : Nat := 0

/-- A server at its start. -/
def start (store : DumpingStore) (interval : Nanos) (signal : StopSignal) : ServerLife :=
  let listener := signal.subscribe
  let runs := (SnapshotLoop.start store interval 0 listener).running
  ⟨store, if runs then .waiting else .ended, signal, listener, [], []⟩

inductive Event
  /-- a request comes in -/
  | arrive (writer : Nat) (call : StoreCall)
  /-- the store is asked -/
  | perform (writer : Nat)
  /-- a request is answered -/
  | respond (writer : Nat)
  /-- the one who asked has gone -/
  | leave (writer : Nat)
  /-- a dump begins or goes on -/
  | dump (e : DumpingStore.Event)
  /-- the ticker of the loop is due -/
  | tick
  /-- the loop hears the signal -/
  | hear
  /-- a dump of the loop has ended -/
  | resume
  /-- the stop signal is switched on -/
  | stop

/-- How the dump of a writer ended, if it has. -/
def dumpResult? (s : ServerLife) (writer : Nat) : Option (Except Fault Unit) :=
  s.store.ended.lookup writer

/-- Whether a request still waits for a dump: one was asked for and has not ended. -/
def awaitsDump (s : ServerLife) (r : OpenRequest) : Bool :=
  r.call.writes && s.store.dumpsWrites &&
    (match r.reply with
      | some (.ok _) => (s.dumpResult? r.writer).isNone
      | _ => false)

def request? (s : ServerLife) (writer : Nat) : Option OpenRequest :=
  s.requests.find? fun r => r.writer = writer

def without (s : ServerLife) (writer : Nat) : List OpenRequest :=
  s.requests.filter fun r => r.writer ≠ writer

/-- Asks the store. -/
def perform (s : ServerLife) (r : OpenRequest) : ServerLife :=
  let (reply, store) := s.store.perform r.writer r.call
  { s with
    store := store
    requests := s.requests.map fun o =>
      if o.writer = r.writer then ⟨r.writer, r.call, some reply⟩ else o }

/-- The loop asks for a dump. -/
def askForDump (s : ServerLife) (isLast : Bool) : ServerLife :=
  let ended := s.store.ended.filter fun e => e.1 ≠ loopWriter
  { s with
    store := { s.store with ended := ended }.ask loopWriter
    loop := .dumping isLast }

def step (s : ServerLife) : Event → ServerLife
  | .arrive writer call =>
    if s.signal.on || writer = loopWriter || (s.request? writer).isSome ||
        (s.dumpResult? writer).isSome then s
    else { s with requests := s.requests ++ [⟨writer, call, none⟩] }
  | .perform writer =>
    match s.request? writer with
    | some r => if r.reply.isNone then s.perform r else s
    | none => s
  | .respond writer =>
    match s.request? writer with
    | some r =>
      match r.reply with
      | some reply =>
        if s.awaitsDump r then s
        else { s with requests := s.without writer, served := ⟨r.call, reply⟩ :: s.served }
      | none => s
    | none => s
  | .leave writer =>
    if writer = loopWriter then s
    else { s with requests := s.without writer, store := s.store.step (.drop writer) }
  | .dump e =>
    match e with
    | .drop _ => s
    | e => { s with store := s.store.step e }
  | .tick => if s.loop = .waiting && !s.store.dumpsWrites then s.askForDump false else s
  | .hear =>
    if s.loop = .waiting && SnapshotLoop.attention.hears s.signal s.listener then
      s.askForDump true
    else s
  | .resume =>
    match s.loop, s.dumpResult? loopWriter with
    | .dumping isLast, some _ => { s with loop := if isLast then .ended else .waiting }
    | _, _ => s
  | .stop => { s with signal := s.signal.trigger }

def run (s : ServerLife) (events : List Event) : ServerLife := events.foldl step s

/-- Whether every task has ended. -/
def isOver (s : ServerLife) : Bool :=
  s.signal.on && s.loop = .ended && s.requests.isEmpty && s.store.dumps.isEmpty

end ServerLife

end Telemetry
