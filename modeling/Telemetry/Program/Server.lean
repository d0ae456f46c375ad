import Std.Async.Select
import Std.Async.TCP
import Std.Sync.CancellationToken
import Std.Sync.Mutex
import Telemetry.Http.Server
import Telemetry.Http.Wire
import Telemetry.Program.Disk
import Telemetry.Program.Ending
import Telemetry.Program.Network
import Telemetry.Server.Plan

/-!
# Running a server

The storage is one value behind a lock. Whatever changes it does so in one go, and what
that did to the snapshot file is repeated on the disk before the lock is given back.
-/

namespace Telemetry.Program

open Std.Async

/-- A server that runs. -/
structure RunningServer where
  plan : ServerPlan
  logLevel : String
  storage : Std.Mutex Storage
  /-- the request to stop -/
  stop : Std.CancellationToken

namespace RunningServer

/-- Lets the storage do something, which may lead to a dump on some occasion. -/
def withStorage {α : Type} (s : RunningServer) (occasion : DumpOccasion)
    (act : StateM Storage α) : IO α :=
  s.storage.atomically do
    let before ← get
    let (a, after) := act.run before
    set after
    if let some path := after.memory.snapshot then
      let changes := Snapshot.difference path before.memory.files after.memory.files
      let failure ← repeatAll changes
      showLines s.logLevel (occasion.line? failure).toList
    pure a

/-! ## Requests -/

/-- Serves the requests of a connection, one after another. A request that has begun to
arrive is served even if the server is to stop. -/
partial def serveConnection (s : RunningServer) (client : TCP.Socket.Client) (arrived : Bytes) :
    Async Unit := do
  match Http.Request.read arrived with
  | .malformed =>
    client.send (Http.Response.bare 400).write.toByteArray
    client.shutdown
  | .complete request rest =>
    let response ← s.withStorage .write (Http.respond s.plan.guard Storage.call request)
    client.send response.write.toByteArray
    if request.endsConnection then client.shutdown else s.serveConnection client rest
  | .incomplete =>
    let more ←
      if arrived.isEmpty then
        Selectable.one
          #[ .case (client.recvSelector 65536) fun part => pure part,
            .case s.stop.selector fun _ => pure none ]
      else client.recv? 65536
    match more with
    | some part => s.serveConnection client (arrived ++ part.toList)
    | none => client.shutdown

/-- Serves a connection whatever happens to it. -/
def attend (s : RunningServer) (client : TCP.Socket.Client) : Async Unit := do
  try s.serveConnection client [] catch _ => pure ()

/-- Takes connections until the server is to stop, and gives back those that are still
served. -/
partial def acceptAll (s : RunningServer) (server : TCP.Socket.Server)
    (served : List (AsyncTask Unit)) : Async (List (AsyncTask Unit)) := do
  let arrived ← Selectable.one
    #[ .case server.acceptSelector fun client => pure (some client),
      .case s.stop.selector fun _ => pure none ]
  match arrived with
  | none => pure served
  | some client =>
    let task : AsyncTask Unit ← async (s.attend client)
    let unfinished ← served.filterM fun t => do pure (!(← IO.hasFinished t))
    s.acceptAll server (task :: unfinished)

/-! ## Loops -/

/-- Waits until a moment, and tells whether the server is to stop before that. Without a
moment there is only the stop to wait for. -/
def waitFor (s : RunningServer) (moment : Option Nanos) : Async Bool := do
  let stops : Selectable Bool := .case s.stop.selector fun _ => pure true
  match moment with
  | none => Selectable.one #[stops]
  | some moment => do
    let alarm ← Selector.sleep (.ofNat (millisUntil (← IO.monoNanosNow) moment))
    Selectable.one #[stops, .case alarm fun _ => pure false]

/-- Dumps the memory at intervals and at the end. -/
partial def keepSnapshots (s : RunningServer) (l : SnapshotLoop) : Async Unit := do
  if l.running then
    let isStopping ← s.waitFor (l.ticker.map fun t => t.next)
    let l ← s.withStorage (if isStopping then .stop else .interval) fun storage =>
      let (l, memory) :=
        if isStopping then l.listen storage.memory StopSignal.fresh.trigger
        else l.tick storage.memory
      (l, { storage with memory := memory })
    s.keepSnapshots l

/-- Looks at intervals which store is to be used. -/
partial def keepWatch (s : RunningServer) (l : MonitorLoop) : Async Unit := do
  if l.running then
    if ← s.waitFor (some l.ticker.next) then pure ()
    else
      s.withStorage .write (modify Storage.check)
      s.keepWatch l.tick

/-- Starts the loops. -/
def startLoops (s : RunningServer) : Async (List (AsyncTask Unit)) := do
  let now ← IO.monoNanosNow
  let listener := StopSignal.fresh.subscribe
  let settings := s.plan.settings
  let storage := s.plan.storage
  let snapshots :=
    SnapshotLoop.start storage.memory (Nanos.ofSeconds settings.storeIntervalSecs) now listener
  let watch :=
    MonitorLoop.start storage.client.isSome (Nanos.ofSeconds settings.dbCheckIntervalSecs) now
      listener
  pure [← async (s.keepSnapshots snapshots), ← async (s.keepWatch watch)]

/-! ## From the start to the end -/

/-- A socket that listens at an address. -/
def listenAt (address : String) : Async TCP.Socket.Server := do
  let server ← TCP.Socket.Server.mk
  server.bind (← lookUp address "0")
  server.listen 1024
  pure server

/-- Runs until someone asks for the end. -/
def run (s : RunningServer) (server : TCP.Socket.Server) : Async Unit := do
  showLines s.logLevel
    (ServerPlan.listeningLines s.plan.settings (addressText (← server.getSockName)))
  let loops ← s.startLoops
  let accepting : AsyncTask (List (AsyncTask Unit)) ← async (s.acceptAll server [])
  let reason ← awaitStopRequest
  showLines s.logLevel (ServerPlan.stoppingLines reason)
  s.stop.cancel .shutdown
  for task in (← await accepting) ++ loops do
    await task
  showLines s.logLevel ServerPlan.closingLines

end RunningServer

/-- Runs a server as a command asks for it, and tells how it ended. -/
def runServer (command : ServerCommand) : IO UInt32 := do
  let files ← readAllInto .empty command.config.toList
  let files ← readAllInto files (ServerPlan.neededFiles command files)
  let (outcome, lines) := (ServerPlan.prepare command files Storage.nowhere .fresh).outcome
  showLines command.logLevel lines
  match outcome with
  | .error fault => showFault fault
  | .ok plan =>
    let stop ← Std.CancellationToken.new
    let s : RunningServer := ⟨plan, command.logLevel, ← Std.Mutex.new plan.storage, stop⟩
    try
      let server ← (RunningServer.listenAt plan.settings.address).block
      (s.run server).block
      pure 0
    catch e => showFault (ServerPlan.bindFault plan.settings (toString e))

end Telemetry.Program
