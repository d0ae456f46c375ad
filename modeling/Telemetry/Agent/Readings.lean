import Telemetry.Metric

/-!
# Readings of one poll

What a poll reads from the machine, and the metrics that it becomes: a fixed table of
names, then one gauge for each core. A reading that is not finite is reported as zero.
-/

namespace Telemetry

structure Readings where
  totalMemory : Binary64 := Binary64.zero
  freeMemory : Binary64 := Binary64.zero
  availableMemory : Binary64 := Binary64.zero
  usedMemory : Binary64 := Binary64.zero
  totalSwap : Binary64 := Binary64.zero
  usedSwap : Binary64 := Binary64.zero
  cpuUtilization : Binary64 := Binary64.zero
  /-- one reading for each core -/
  coreUtilization : List Binary64 := []
  loadAverage1 : Binary64 := Binary64.zero
  loadAverage5 : Binary64 := Binary64.zero
  loadAverage15 : Binary64 := Binary64.zero
  processMemory : Binary64 := Binary64.zero
  processCpu : Binary64 := Binary64.zero
  uptime : Binary64 := Binary64.zero
  /-- a random number from zero to one -/
  random : Binary64 := Binary64.zero
  /-- polls that the server has not heard of -/
  pollCount : Int64 := 0

/-- The name of the counter of polls. -/
def pollCountName : String := "PollCount"

namespace Readings

/-- The gauges with fixed names, in their order. -/
def gauges : List (String × (Readings → Binary64)) :=
  [ ("TotalMemory", totalMemory),
    ("FreeMemory", freeMemory),
    ("AvailableMemory", availableMemory),
    ("UsedMemory", usedMemory),
    ("TotalSwap", totalSwap),
    ("SwapUsed", usedSwap),
    ("CPUutilization", cpuUtilization),
    ("LoadAverage1", loadAverage1),
    ("LoadAverage5", loadAverage5),
    ("LoadAverage15", loadAverage15),
    ("ProcessMemory", processMemory),
    ("ProcessCPU", processCpu),
    ("Uptime", uptime),
    ("RandomValue", random) ]

def finiteOrZero (x : Binary64) : Binary64 := if x.isFinite then x else Binary64.zero

/-- The number of polls as the table holds it: read as a double and cut to an integer. -/
def tabledPolls (r : Readings) : Int64 := (Binary64.ofInt r.pollCount.toInt).toInt64

/-- The gauge of core number `i`, counted from zero; the names count from one. -/
def coreMetric (i : Nat) (usage : Binary64) : Metric :=
  .gauge ("CPUutilization" ++ natText (i + 1)) (finiteOrZero usage)

/-- The metrics of the table. -/
def tableMetrics (r : Readings) : List Metric :=
  gauges.map (fun e => Metric.gauge e.1 (finiteOrZero (e.2 r))) ++
    [.counter pollCountName r.tabledPolls]

def metrics (r : Readings) : List Metric :=
  r.tableMetrics ++ r.coreUtilization.mapIdx coreMetric

end Readings

end Telemetry
