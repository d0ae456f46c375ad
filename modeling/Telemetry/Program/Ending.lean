import Std.Async.Signal
import Std.Async.Timer
import Telemetry.Duration
import Telemetry.Startup

/-!
# How a program ends

By a fault at its start, or because the system asks for it.
-/

namespace Telemetry.Program

open Std.Async

/-- Shows why a program does not start, and tells how it ends. -/
def showFault (fault : StartFault) : IO UInt32 := do
  for line in fault.lines do
    IO.eprintln line
  pure 1

/-- Waits until the system asks for the end, and tells in which way it did. -/
def awaitStopRequest : Async String := do
  let interrupted : AsyncTask Int ← (← Signal.Waiter.mk .sigint false).wait
  let terminated : AsyncTask Int ← (← Signal.Waiter.mk .sigterm false).wait
  Async.race (do discard (await interrupted); pure "SIGINT")
    (do discard (await terminated); pure "SIGTERM")

/-- How many milliseconds are left until a moment. -/
def millisUntil (now moment : Nanos) : Nat := (moment - now + 999999) / 1000000

end Telemetry.Program
