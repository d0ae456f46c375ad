import Telemetry.Duration

/-!
# How long to wait before another try

The wait grows by a factor with every failed try, from an initial delay up to a
largest one. It is computed in doubles and rounded to whole nanoseconds. The number of
the try is taken as a signed exponent of thirty-two bits.
-/

namespace Telemetry

structure RetryPolicy where
  /-- tries after the first one, below 2^32 -/
  maxRetries : Nat
  initialDelay : Nanos
  multiplier : Binary64
  maxDelay : Nanos
  /-- how long a single try may take -/
  callTimeout : Option Nanos

namespace RetryPolicy

/-- The lowest thirty-two bits of a number, read with a sign. -/
def signed32 (n : Nat) : Int := Int.bmod n UInt32.size

/-- The wait after try number `attempt`, counted from zero. -/
def delay (p : RetryPolicy) (attempt : Nat) : Nanos :=
  let factor := (p.multiplier.max (Binary64.ofNat 1)).power (signed32 attempt)
  let wait := p.initialDelay.seconds.mul factor
  if !wait.isFinite || p.maxDelay.seconds.le wait then p.maxDelay
  else Nanos.ofSecondsReal wait

end RetryPolicy

end Telemetry
