import Telemetry.Metric

/-!
# Polls that the server has not heard of

The collector adds one with every poll. The reporter takes all of them along with a
report and puts them back if the report fails.
-/

namespace Telemetry

structure PollLedger where
  pending : Int64
deriving DecidableEq, Repr

namespace PollLedger

def empty : PollLedger := ⟨0⟩

/-- Records a poll and tells how many are pending with it. -/
def record (l : PollLedger) : PollLedger × Int64 :=
  (⟨l.pending + 1⟩, saturatingAdd l.pending 1)

/-- Takes all that is pending. -/
def take (l : PollLedger) : PollLedger × Int64 := (⟨0⟩, l.pending)

/-- Puts back what could not be delivered. There is nothing to put back unless the
number is positive. -/
def restore (l : PollLedger) (polls : Int64) : PollLedger :=
  if 0 < polls then ⟨l.pending + polls⟩ else l

end PollLedger

end Telemetry
