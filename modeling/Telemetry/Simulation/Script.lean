import Telemetry.Simulation.Clock
import Telemetry.Store.Memory

/-!
# A store that follows a script

Answers like a store in memory, except that a script says of each call whether it is
answered, how late, or with which fault. Past its end the script lets every call be
answered. The store keeps a record of the calls with their moments.
-/

namespace Telemetry

/-- What the script says of a call. -/
inductive ScriptLine
  | answer
  | late (span : Nanos)
  | silence
  | fail (fault : Fault)

structure ScriptedTable where
  script : List ScriptLine
  /-- the calls so far, the latest first -/
  calls : List (StoreCall × Nanos)
  table : Table

namespace ScriptedTable

/-- Answers from the table. -/
def answer : Store (Timed ScriptedTable) := fun c => do
  let k ← get
  let (reply, table) := Table.answer c k.world.table
  set { k with world := { k.world with table := table } }
  pure reply

/-- A call as the script has it. -/
def call : Store (Timed ScriptedTable) := fun c => do
  let k ← get
  let w := k.world
  set { k with world := { w with script := w.script.tail, calls := (c, k.now) :: w.calls } }
  match w.script.headD .answer with
  | .answer => answer c
  | .late span => do
    Timed.sleep span
    answer c
  | .silence => Timed.never
  | .fail f => pure (.error f)

/-- The store; merging is one call, or made of its steps. -/
def store (bySteps : Bool) : Store (Timed ScriptedTable)
  | .mergeMany batch => if bySteps then mergeBySteps call batch else call (.mergeMany batch)
  | c => call c

/-- The calls in their order, with an empty record. -/
def takeCalls (w : ScriptedTable) : List (StoreCall × Nanos) × ScriptedTable :=
  (w.calls.reverse, { w with calls := [] })

end ScriptedTable

end Telemetry
