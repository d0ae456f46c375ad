import Telemetry.Decimal.Text

/-!
# Spans of time

A span is a number of nanoseconds. It is written in the largest unit that it fills,
with as many decimals as it needs. As a double it is its whole seconds plus its
nanoseconds over a billion, and a double is rounded to the nearest nanosecond.
-/

namespace Telemetry

/-- A span of time in nanoseconds. -/
abbrev Nanos := Nat

namespace Nanos

def ofMillis (n : Nat) : Nanos := n * 1000000

def ofSeconds (n : Nat) : Nanos := n * 1000000000

/-- Seconds, as a double. -/
def seconds (n : Nanos) : Binary64 :=
  (Binary64.ofNat (n / 1000000000)).add
    ((Binary64.ofNat (n % 1000000000)).div (Binary64.ofNat 1000000000))

/-- The span nearest to a number of seconds that is finite and not negative. -/
def ofSecondsReal (x : Binary64) : Nanos :=
  roundHalfEven (Binary64.units x.code * 1000000000) Binary64.unitsPerOne

/-- A fraction of `places` digits without zeros at its end, with its point. -/
def fractionText (value places : Nat) : List Char :=
  let digits := (Decimal.digitChars (Nat.pow 10 places + value)).drop 1
  match (digits.reverse.dropWhile (· = '0')).reverse with
  | [] => []
  | kept => '.' :: kept

/-- A span in its largest unit. -/
def text (n : Nanos) : String :=
  let inUnit (size places : Nat) (unit : String) : String :=
    String.ofList (Decimal.digitChars (n / size) ++ fractionText (n % size) places) ++ unit
  if 1000000000 ≤ n then inUnit 1000000000 9 "s"
  else if 1000000 ≤ n then inUnit 1000000 6 "ms"
  else if 1000 ≤ n then inUnit 1000 3 "µs"
  else natText n ++ "ns"

end Nanos

end Telemetry
