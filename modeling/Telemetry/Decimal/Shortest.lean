import Telemetry.Binary64

/-!
# The shortest decimal that reads back

Every double has a decimal of at most seventeen digits that rounds back to it.
`shortest` finds one with the fewest digits, and of those the nearest: it looks at
ever finer grids of powers of ten and stops at the first that has a point in the
interval of reals that round to the double. Only the two grid points around the
value need a look, since if any point of a grid lies in the interval one of these
does.

What happens when both neighbours are equally near is left to the caller (`Tie`),
because the two texts a gauge is written in settle it differently.
-/

namespace Telemetry

/-- A decimal `digits * 10 ^ exponent`. -/
structure Decimal where
  digits : Nat
  exponent : Int
deriving DecidableEq, Inhabited, Repr

namespace Decimal

/-- Which of two equally near grid points is taken. -/
inductive Tie
  /-- the one with the even last digit -/
  | toEven
  /-- the one with the larger magnitude -/
  | away
deriving DecidableEq

/-- The point of the grid `10 ^ exponent` that reads back as the code `c`, if there
is one. All magnitudes are in halves of the smallest double, scaled by the power of
ten when the exponent is negative. -/
def gridPoint (tie : Tie) (c : Nat) (exponent : Int) : Option Nat :=
  let scale := Nat.pow 10 (-exponent).toNat
  let step := Nat.pow 10 exponent.toNat * (2 * Binary64.unitsPerOne)
  let value := 2 * Binary64.units c * scale
  let low := (Binary64.units (c - 1) + Binary64.units c) * scale
  let high := (Binary64.units c + Binary64.units (c + 1)) * scale
  let closed := c % 2 = 0
  let inside (n : Nat) : Bool :=
    if closed then low ≤ n * step && n * step ≤ high
    else low < n * step && n * step < high
  let below := value / step
  let above := below + 1
  match inside below, inside above with
  | false, false => none
  | true, false => some below
  | false, true => some above
  | true, true =>
    let toBelow := value - below * step
    let toAbove := above * step - value
    if toBelow < toAbove then some below
    else if toAbove < toBelow then some above
    else match tie with
      | .away => some above
      | .toEven => if below % 2 = 0 then some below else some above

/-- Walks from the grid `10 ^ exponent` to finer ones. -/
def firstGrid (tie : Tie) (c : Nat) : Nat → Int → Decimal
  | 0, exponent => ⟨0, exponent⟩
  | fuel + 1, exponent =>
    match gridPoint tie c exponent with
    | some n => ⟨n, exponent⟩
    | none => firstGrid tie c fuel (exponent - 1)

/-- The exponent of the coarsest grid that can have a point near a double: no
finite double exceeds `2 * 10 ^ 308`. -/
def coarsestGrid : Int := 309

/-- How many grids there are down to one finer than the smallest double. -/
def gridCount : Nat := 640

/-- The decimal with the fewest digits that rounds to the magnitude of code `c`,
nearest of those; zero for code zero. -/
def shortest (tie : Tie) (c : Nat) : Decimal :=
  if c = 0 then ⟨0, 0⟩ else firstGrid tie c gridCount coarsestGrid

end Decimal

end Telemetry
