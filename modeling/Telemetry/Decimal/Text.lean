import Telemetry.Decimal.Shortest

/-!
# Texts of numbers

A gauge is written in two forms. The plain form (`plain`) is what a person reads:
always positional, no point when there is nothing behind it. The document form
(`document`) is what goes into a JSON document: positional with a point for
exponents from -5 to 15, scientific outside. Both write the shortest decimal that
reads back.

Reading the plain form (`readReal`) takes every decimal spelling and rounds once;
reading a counter's increment (`readInt64`) reports the first thing wrong from the
left, so that a number already out of range wins over a bad digit behind it.
-/

namespace Telemetry

namespace Decimal

/-- The decimal digits of a number, most significant first. -/
def digitChars (n : Nat) : List Char := Nat.toDigits 10 n

/-- A decimal without exponent. `integral` says what follows a whole number. -/
def positional (d : Decimal) (integral : List Char) : List Char :=
  let digits := digitChars d.digits
  if 0 ≤ d.exponent then
    digits ++ List.replicate d.exponent.toNat '0' ++ integral
  else
    let places := (-d.exponent).toNat
    if places < digits.length then
      digits.take (digits.length - places) ++ '.' :: digits.drop (digits.length - places)
    else '0' :: '.' :: (List.replicate (places - digits.length) '0' ++ digits)

/-- A decimal as one digit, a point if more digits follow, and a signed power of
ten. -/
def scientific (d : Decimal) : List Char :=
  match digitChars d.digits with
  | [] => []
  | first :: rest =>
    let exponent := d.exponent + rest.length
    let fraction := if rest.isEmpty then [] else '.' :: rest
    let sign := if exponent < 0 then '-' else '+'
    first :: (fraction ++ 'e' :: sign :: digitChars exponent.natAbs)

end Decimal

namespace Binary64

def signChars (x : Binary64) : List Char := if x.isNegative then ['-'] else []

/-- The plain form: positional, with no point after a whole number. A tie between
two shortest decimals goes to the larger one. -/
def plain (x : Binary64) : String :=
  if x.isNaN then "NaN"
  else if x.isInfinite then if x.isNegative then "-inf" else "inf"
  else String.ofList (x.signChars ++ (Decimal.shortest .away x.code).positional [])

/-- The decimal exponents that the document form writes without a power of ten. -/
def positionalExponent (exponent : Int) : Bool := -5 ≤ exponent && exponent < 16

/-- The document form of a finite value. A tie goes to the even digit. -/
def documentChars (x : Binary64) : List Char :=
  let d := Decimal.shortest .toEven x.code
  let leading := d.exponent + (Decimal.digitChars d.digits).length - 1
  x.signChars ++
    if d.digits = 0 || positionalExponent leading then d.positional ['.', '0']
    else d.scientific

/-- The document form; JSON has no word for values that are not finite. -/
def document (x : Binary64) : String :=
  if x.isFinite then String.ofList x.documentChars else "null"

end Binary64

namespace Decimal

/-- Why a text is not a number. -/
inductive Unreadable
  | emptyReal
  | badReal
  | emptyInteger
  | badDigit
  | tooLarge
  | tooSmall
deriving DecidableEq

def Unreadable.message : Unreadable → String
  | .emptyReal => "cannot parse float from empty string"
  | .badReal => "invalid float literal"
  | .emptyInteger => "cannot parse integer from empty string"
  | .badDigit => "invalid digit found in string"
  | .tooLarge => "number too large to fit in target type"
  | .tooSmall => "number too small to fit in target type"

def digitValue (c : Char) : Option Nat :=
  if '0' ≤ c ∧ c ≤ '9' then some (c.toNat - '0'.toNat) else none

/-- The digits at the front of a text: the number they extend `value` to, how many
they are, and what follows. -/
def takeDigits (value count : Nat) : List Char → Nat × Nat × List Char
  | [] => (value, count, [])
  | c :: rest =>
    match digitValue c with
    | some d => takeDigits (10 * value + d) (count + 1) rest
    | none => (value, count, c :: rest)

/-- The double nearest to `digits * 10 ^ exponent`. Exponents so large or so small
that the answer is an infinity or a zero whatever the digits are decided by the
number of digits, before any power is computed. -/
def nearest (negative : Bool) (digits : Nat) (exponent : Int) : Binary64 :=
  let size := (digitChars digits).length + exponent
  if digits = 0 then Binary64.ofCode negative 0
  else if 400 < size then Binary64.infinity negative
  else if size < -400 then Binary64.ofCode negative 0
  else if 0 ≤ exponent then Binary64.ofRatio negative (digits * Nat.pow 10 exponent.toNat) 1
  else Binary64.ofRatio negative digits (Nat.pow 10 (-exponent).toNat)

/-- What may follow the digits of a real: nothing, or `e`, an optional sign and
digits. -/
def readExponent : List Char → Option Int
  | [] => some 0
  | c :: rest =>
    if c = 'e' ∨ c = 'E' then
      let (negative, digits) :=
        match rest with
        | '-' :: r => (true, r)
        | '+' :: r => (false, r)
        | r => (false, r)
      match takeDigits 0 0 digits with
      | (_, 0, _) => none
      | (value, _, []) => some (if negative then -(value : Int) else value)
      | _ => none
    else none

/-- Digits with an optional point among them, at least one, then an exponent. -/
def readMagnitude (negative : Bool) (cs : List Char) : Option Binary64 :=
  let (whole, wholeCount, rest) := takeDigits 0 0 cs
  let (digits, places, rest) :=
    match rest with
    | '.' :: r => takeDigits whole 0 r
    | r => (whole, 0, r)
  if wholeCount + places = 0 then none
  else (readExponent rest).map fun e => nearest negative digits (e - places)

/-- The words for values that are not finite, in any case. -/
def readWord (negative : Bool) (cs : List Char) : Option Binary64 :=
  let word := cs.map Char.toLower
  if word = "inf".toList ∨ word = "infinity".toList then some (Binary64.infinity negative)
  else if word = "nan".toList then
    some (if negative then Binary64.nan.neg else Binary64.nan)
  else none

/-- Reads a real number, correctly rounded. -/
def readReal (s : String) : Except Unreadable Binary64 :=
  let cs := s.toList
  if cs.isEmpty then .error .emptyReal
  else
    let (negative, body) :=
      match cs with
      | '-' :: r => (true, r)
      | '+' :: r => (false, r)
      | r => (false, r)
    match readMagnitude negative body with
    | some x => .ok x
    | none =>
      match readWord negative body with
      | some x => .ok x
      | none => .error .badReal

/-- Digits of a sixty-four bit integer of the given sign, from the left. -/
def readDigits64 (negative : Bool) (value : Nat) : List Char → Except Unreadable Nat
  | [] => .ok value
  | c :: rest =>
    match digitValue c with
    | none => .error .badDigit
    | some d =>
      let next := 10 * value + d
      if negative then
        if 1 <<< 63 < next then .error .tooSmall else readDigits64 negative next rest
      else
        if 1 <<< 63 ≤ next then .error .tooLarge else readDigits64 negative next rest

/-- Reads a signed sixty-four bit integer. -/
def readInt64 (s : String) : Except Unreadable Int64 :=
  match s.toList with
  | [] => .error .emptyInteger
  | '-' :: [] => .error .badDigit
  | '+' :: [] => .error .badDigit
  | '-' :: r => (readDigits64 true 0 r).map fun n => Int64.ofInt (-(n : Int))
  | '+' :: r => (readDigits64 false 0 r).map fun n => Int64.ofInt n
  | r => (readDigits64 false 0 r).map fun n => Int64.ofInt n

end Decimal

/-- A signed sixty-four bit integer in decimal digits. -/
def int64Text (i : Int64) : String :=
  let n := i.toInt
  String.ofList ((if n < 0 then ['-'] else []) ++ Decimal.digitChars n.natAbs)

/-- A natural number in decimal digits. -/
def natText (n : Nat) : String := String.ofList (Decimal.digitChars n)

/-- An integer in decimal digits, with a minus sign if it is negative. -/
def intText (i : Int) : String :=
  String.ofList ((if i < 0 then ['-'] else []) ++ Decimal.digitChars i.natAbs)

end Telemetry
