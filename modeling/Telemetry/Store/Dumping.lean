import Telemetry.Duration
import Telemetry.Store.Memory
import Telemetry.Store.Snapshot

/-!
# A store in memory that dumps itself

The table can be dumped to a snapshot file: after every write, or when someone asks for
it. Dumps take turns. Whoever has the turn takes the table as it is at that moment and
begins a dump, which goes through its changes to the files one by one. The turn ends
with the dump, or when the one who has it is dropped; a dump that has begun goes on to
its end even then.

`settle` lets everything that was asked for come to its end, so `call` is a call that
nobody disturbs. A dump that fails does not undo the write before it.
-/

namespace Telemetry

/-- A dump under way. -/
structure Dump where
  /-- the one who began it -/
  writer : Nat
  /-- what is still to be done -/
  rest : List FileTree.Change
deriving DecidableEq

structure DumpingStore where
  table : Table
  files : FileTree
  /-- the path of the snapshot file, if there is one -/
  snapshot : Option String
  /-- whether each write is dumped at once -/
  dumpsWrites : Bool
  /-- those who wait for their turn, the longest waiting first -/
  waiting : List Nat
  /-- the one who has the turn -/
  holder : Option Nat
  dumps : List Dump
  /-- how the dumps of the undisturbed ended, the latest first -/
  ended : List (Nat × Except Fault Unit)

namespace DumpingStore

/-- A store without a snapshot file. -/
def plain (files : FileTree) : DumpingStore :=
  ⟨Table.empty, files, none, false, [], none, [], []⟩

/-- A store with a snapshot file, which may be loaded first. With an interval of zero
each write is dumped at once. -/
def withSnapshot (files : FileTree) (path : String) (interval : Nanos) (restore : Bool) :
    Except Fault DumpingStore := do
  let metrics ← if restore then Snapshot.load files path else pure []
  pure
    { plain files with
      table := Table.ofMetrics metrics
      snapshot := some path
      dumpsWrites := interval = 0 }

/-- Asks for a turn. Without a snapshot file there is nothing to do. -/
def ask (s : DumpingStore) (writer : Nat) : DumpingStore :=
  match s.snapshot with
  | none => { s with ended := (writer, .ok ()) :: s.ended }
  | some _ => { s with waiting := s.waiting ++ [writer] }

/-- The part of a call before anything is dumped. -/
def perform (s : DumpingStore) (writer : Nat) (c : StoreCall) :
    Except Fault c.Reply × DumpingStore :=
  let (reply, table) := Table.answer c s.table
  let s := { s with table := table }
  match reply with
  | .ok r => (.ok r, if c.writes && s.dumpsWrites then s.ask writer else s)
  | .error f => (.error f, s)

/-- What can happen between one moment and the next. -/
inductive Event
  /-- the next in turn begins a dump -/
  | begin
  /-- a dump makes its next change, or ends if nothing is left to do -/
  | proceed (writer : Nat)
  /-- a writer is dropped, wherever it stands -/
  | drop (writer : Nat)
deriving DecidableEq

/-- Takes a dump out of those under way. -/
def removeDump (s : DumpingStore) (writer : Nat) : DumpingStore :=
  { s with dumps := s.dumps.filter fun d => d.writer ≠ writer }

/-- A dump has ended. The turn is free again if its writer still had it. -/
def finish (s : DumpingStore) (writer : Nat) (result : Except Fault Unit) : DumpingStore :=
  let s := s.removeDump writer
  if s.holder = some writer then
    { s with holder := none, ended := (writer, result) :: s.ended }
  else s

def step (s : DumpingStore) : Event → DumpingStore
  | .begin =>
    match s.holder, s.waiting, s.snapshot with
    | none, writer :: rest, some path =>
      { s with
        holder := some writer
        waiting := rest
        dumps := s.dumps ++ [⟨writer, Snapshot.changes s.files path s.table.metrics⟩] }
    | _, _, _ => s
  | .proceed writer =>
    match s.dumps.find? fun d => d.writer = writer with
    | none => s
    | some ⟨_, []⟩ => s.finish writer (.ok ())
    | some ⟨_, change :: rest⟩ =>
      match s.files.apply change with
      | .ok files =>
        { s with
          files := files
          dumps := s.dumps.map fun d => if d.writer = writer then { d with rest := rest } else d }
      | .error cause => s.finish writer (.error (.file cause))
  | .drop writer =>
    { s with
      waiting := s.waiting.filter (· ≠ writer)
      holder := if s.holder = some writer then none else s.holder }

/-- What is to be done next: dumps under way go on before another one begins. -/
def next? (s : DumpingStore) : Option Event :=
  match s.dumps with
  | d :: _ => some (.proceed d.writer)
  | [] => if s.waiting.isEmpty then none else some .begin

/-- At most this many events are needed until nobody waits and no dump is under way. -/
def pending (s : DumpingStore) : Nat :=
  s.dumps.foldr (fun d n => d.rest.length + 1 + n) (6 * s.waiting.length)

def settleWithin (s : DumpingStore) : Nat → DumpingStore
  | 0 => s
  | n + 1 =>
    match s.next? with
    | none => s
    | some e => settleWithin (s.step e) n

def settle (s : DumpingStore) : DumpingStore := s.settleWithin s.pending

/-- The writer in a run in which there is only one at a time. -/
def soleWriter : Nat := 0

/-- A call that nobody disturbs. -/
def call : Store (StateM DumpingStore) := fun c s =>
  let (reply, s) := s.perform soleWriter c
  (reply, { s.settle with ended := [] })

/-- A dump that nobody disturbs. -/
def persist : StateM DumpingStore (Except Fault Unit) := fun s =>
  let s := (s.ask soleWriter).settle
  (((s.ended.head?).map (·.2)).getD (.ok ()), { s with ended := [] })

end DumpingStore

end Telemetry
