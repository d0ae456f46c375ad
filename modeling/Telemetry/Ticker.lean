import Telemetry.Duration

/-!
# Tickers

A ticker is due again and again after the same span of time, for the first time at the
moment at which it is set up. A tick that is late does not move the ticks after it.
-/

namespace Telemetry

structure Ticker where
  interval : Nanos
  /-- when it is due next -/
  next : Nanos
deriving DecidableEq, Repr

namespace Ticker

def start (interval now : Nanos) : Ticker := ⟨interval, now⟩

/-- The ticker after it was heard. -/
def advance (t : Ticker) : Ticker := { t with next := t.next + t.interval }

/-- How often the ticker is due up to a moment. -/
def dueCount (t : Ticker) (moment : Nanos) : Nat :=
  if moment < t.next then 0 else (moment - t.next) / t.interval + 1

end Ticker

end Telemetry
