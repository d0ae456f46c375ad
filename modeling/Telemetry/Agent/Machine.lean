import Telemetry.Agent.Readings
import Telemetry.Text.Blank

/-!
# Readings from the tables of the system

The system keeps its memory, load and processor times in small texts of fields between
blanks. A field that is missing or is no number counts as zero. How busy a processor
is, is told by its times in two polls.
-/

namespace Telemetry

namespace Machine

/-- The fields of a line. -/
def fieldsOf (line : String) : List String :=
  (Text.split ' ' (line.map fun c => if Text.isBlank c then ' ' else c)).filter
    fun f => !f.isEmpty

/-- The lines of a table, each as its fields. -/
def tableOf (text : String) : List (List String) := (Text.split '\n' text).map fieldsOf

def realOf (field : String) : Binary64 := ((Decimal.readReal field).toOption).getD Binary64.zero

/-- The whole part of a number. -/
def natOf (field : String) : Nat :=
  (field.toList.takeWhile Char.isDigit).foldl (fun n c => n * 10 + (c.toNat - 48)) 0

/-- How long a processor was busy and how long it was there. -/
structure Times where
  busy : Nat
  total : Nat
deriving DecidableEq, Repr

/-- The times in a line of the table of processors: the fourth and the fifth of them
were spent idle. -/
def Times.ofFields (fields : List String) : Times :=
  let times := fields.map natOf
  let idle := (times[3]?.getD 0) + (times[4]?.getD 0)
  let total := (times.take 8).foldl (· + ·) 0
  ⟨total - idle, total⟩

/-- How busy a processor was between two polls, of a hundred. -/
def Times.utilization (before now : Times) : Binary64 :=
  Binary64.ofRatio false (100 * (now.busy - before.busy)) (max 1 (now.total - before.total))

/-- What the tables say at one poll. -/
structure Tables where
  memory : String
  processors : String
  load : String
  uptime : String
  /-- sizes of the own process, in pages -/
  process : String

/-- The times of all processors together and of each. -/
def timesOf (processors : String) : List Times :=
  (tableOf processors).filterMap fun
    | name :: times => if name.startsWith "cpu" then some (.ofFields times) else none
    | [] => none

/-- A line of the table of memory, in bytes. -/
def memoryOf (memory : String) (name : String) : Nat :=
  match (tableOf memory).find? fun fields => fields.head? = some (name ++ ":") with
  | some (_ :: size :: _) => natOf size * 1024
  | _ => 0

/-- The size of a page. -/
def pageSize : Nat := 4096

/-- The readings of a poll, of which the one before left the times of the processors. -/
def readings (t : Tables) (before : List Times) (random : Binary64) : Readings :=
  let memory (name : String) : Nat := memoryOf t.memory name
  let amount (n : Nat) : Binary64 := Binary64.ofNat n
  let load := (fieldsOf t.load).map realOf
  let utilization :=
    (timesOf t.processors).zipIdx.map fun (now, i) =>
      (before[i]?.getD ⟨0, 0⟩).utilization now
  { totalMemory := amount (memory "MemTotal")
    freeMemory := amount (memory "MemFree")
    availableMemory := amount (memory "MemAvailable")
    usedMemory := amount (memory "MemTotal" - memory "MemAvailable")
    totalSwap := amount (memory "SwapTotal")
    usedSwap := amount (memory "SwapTotal" - memory "SwapFree")
    cpuUtilization := utilization.headD Binary64.zero
    coreUtilization := utilization.drop 1
    loadAverage1 := load[0]?.getD Binary64.zero
    loadAverage5 := load[1]?.getD Binary64.zero
    loadAverage15 := load[2]?.getD Binary64.zero
    processMemory := amount (natOf (((fieldsOf t.process)[1]?).getD "") * pageSize)
    uptime := amount (natOf ((fieldsOf t.uptime).headD ""))
    random := random }

end Machine

end Telemetry
