/-!
# Doubles as exact multiples of the smallest one

A gauge holds a double, and a stored gauge has to be the very double that was
sent. So a double is kept here as its sixty-four interchange bits, and all that
is computed with it goes through exact natural numbers: a finite magnitude is a
*code* (exponent and fraction fields read as one number), and `units` says how
many times the smallest positive double, 2 to the power -1074, that code is.

Larger codes are larger magnitudes, so ordering is ordering of codes, and
rounding (`nearestCode`) is one division: the quotient picks the exponent and a
half goes to the even neighbour. Sum, product, quotient, power and the
conversions are all one exact expression followed by that rounding.
-/

namespace Telemetry

/-- A double, held as the sixty-four bits of its interchange form. Two of them
are equal exactly when all their bits are. -/
structure Binary64 where
  bits : UInt64
deriving DecidableEq, Inhabited, Repr

/-- The integer nearest to `num / den`, a half going to the even one. -/
def roundHalfEven (num den : Nat) : Nat :=
  let q := num / den
  let r := num % den
  if 2 * r < den then q
  else if den < 2 * r then q + 1
  else q + q % 2

namespace Binary64

/-- The code of an infinite magnitude; finite ones lie below it, and those of
values that are not numbers above. -/
def infinityCode : Nat := 2047 <<< 52

/-- How many smallest positive doubles make one. -/
def unitsPerOne : Nat := 1 <<< 1074

/-- Whether the sign bit is set. -/
def isNegative (x : Binary64) : Bool := 1 <<< 63 ≤ x.bits.toNat

/-- Exponent and fraction fields, read as one number. -/
def code (x : Binary64) : Nat := x.bits.toNat % (1 <<< 63)

def isFinite (x : Binary64) : Bool := x.code < infinityCode

def isNaN (x : Binary64) : Bool := infinityCode < x.code

def isInfinite (x : Binary64) : Bool := x.code = infinityCode

def isZero (x : Binary64) : Bool := x.code = 0

/-- The magnitude that a code stands for, counted in smallest positive doubles. -/
def units (c : Nat) : Nat :=
  if c < 1 <<< 52 then c else (1 <<< 52 + c % (1 <<< 52)) <<< (c >>> 52 - 1)

/-- The code nearest to the magnitude `num / den`, counted in smallest positive
doubles. The quotient fixes how many low bits are dropped; what is left, fifty-three
bits at most, is added to the exponent field, so that a carry out of the fraction
lands where it belongs. -/
def nearestCode (num den : Nat) : Nat :=
  let dropped := Nat.log2 (num / den) - 52
  min (dropped <<< 52 + roundHalfEven num (den <<< dropped)) infinityCode

/-- The double with the given sign and code. -/
def ofCode (negative : Bool) (c : Nat) : Binary64 :=
  ⟨UInt64.ofNat (if negative then 1 <<< 63 + c else c)⟩

/-- The double nearest to plus or minus `num / den`. -/
def ofRatio (negative : Bool) (num den : Nat) : Binary64 :=
  ofCode negative (nearestCode (num * unitsPerOne) den)

def zero : Binary64 := ofCode false 0

def infinity (negative : Bool) : Binary64 := ofCode negative infinityCode

/-- The value that is not a number, in its usual spelling. -/
def nan : Binary64 := ofCode false (infinityCode + 1 <<< 51)

def ofNat (n : Nat) : Binary64 := ofRatio false n 1

def ofInt (i : Int) : Binary64 := ofRatio (i < 0) i.natAbs 1

/-- The double with the other sign bit. -/
def neg (x : Binary64) : Binary64 := ofCode (!x.isNegative) x.code

/-- Product, rounded once. -/
def mul (x y : Binary64) : Binary64 :=
  let negative := x.isNegative != y.isNegative
  if x.isNaN || y.isNaN then nan
  else if x.isInfinite || y.isInfinite then
    if x.isZero || y.isZero then nan else infinity negative
  else ofCode negative (nearestCode (units x.code * units y.code) unitsPerOne)

/-- Quotient, rounded once. -/
def div (x y : Binary64) : Binary64 :=
  let negative := x.isNegative != y.isNegative
  if x.isNaN || y.isNaN then nan
  else if x.isInfinite then
    if y.isInfinite then nan else infinity negative
  else if y.isInfinite then ofCode negative 0
  else if y.isZero then
    if x.isZero then nan else infinity negative
  else ofCode negative (nearestCode (units x.code * unitsPerOne) (units y.code))

/-- The finite value in smallest positive doubles, with its sign. -/
def signedUnits (x : Binary64) : Int :=
  if x.isNegative then -(units x.code : Int) else (units x.code : Int)

/-- Sum, rounded once. A zero sum is negative only if both terms are. -/
def add (x y : Binary64) : Binary64 :=
  if x.isNaN || y.isNaN then nan
  else if x.isInfinite then
    if y.isInfinite && x.isNegative != y.isNegative then nan else x
  else if y.isInfinite then y
  else
    let total := x.signedUnits + y.signedUnits
    if total = 0 then ofCode (x.isNegative && y.isNegative) 0
    else ofCode (total < 0) (nearestCode total.natAbs 1)

/-- The order of the values: zeros of either sign are equal, and nothing compares
with a value that is not a number. -/
def le (x y : Binary64) : Bool :=
  !x.isNaN && !y.isNaN && decide (x.signedUnits ≤ y.signedUnits)

/-- The larger of two values; a value that is not a number loses. -/
def max (x y : Binary64) : Binary64 :=
  if x.isNaN then y else if y.isNaN then x else if x.le y then y else x

/-- Power by repeated squaring from the lowest bit of the exponent, every product
rounded. `fuel` bounds the number of bits. -/
def powerLoop : Nat → Binary64 → Nat → Binary64 → Binary64
  | 0, _, _, result => result
  | fuel + 1, base, exponent, result =>
    let result := if exponent % 2 = 1 then mul result base else result
    if exponent / 2 = 0 then result
    else powerLoop fuel (mul base base) (exponent / 2) result

/-- The power with an integer exponent; a negative one gives the reciprocal of the
power with its absolute value. -/
def power (base : Binary64) (exponent : Int) : Binary64 :=
  let result := powerLoop (exponent.natAbs + 1) base exponent.natAbs (ofNat 1)
  if exponent < 0 then div (ofNat 1) result else result

/-- The whole part, brought into the range of a signed sixty-four bit integer; a
value that is not a number gives zero. -/
def toInt64 (x : Binary64) : Int64 :=
  if x.isNaN then 0
  else
    let whole : Int := (units x.code / unitsPerOne : Nat)
    Int64.ofIntClamp (if x.isNegative then -whole else whole)

/-- The sixteen hexadecimal digits of the bits. -/
def hexBits (x : Binary64) : String :=
  String.ofList ((List.range 16).map fun i =>
    Nat.digitChar (x.bits.toNat >>> (4 * (15 - i)) % 16))

end Binary64

end Telemetry
