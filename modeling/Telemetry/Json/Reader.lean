import Telemetry.Bytes
import Telemetry.Json.Defect

/-!
# Reading JSON from left to right

A `Reader` takes bytes from the front of its input and gives a value and the rest,
or the first defect it meets. Typed readers (`bool`, `text`, `real`, `int64`,
`list`, ...) agree on one thing: when the value that comes next is of another type,
the defect says what stood there, after reading as much of it as it takes to say so.

Numbers come in three classes: natural numbers below 2^64, negative integers down to
-2^63, and reals. A real is read fast rather than exactly: its first digits that fit
sixty-four bits, rounded to a double, are multiplied or divided by a power of ten
rounded to a double (`scaled`).

A reader also knows a number above the length of the whole document. Every step of a
loop takes at least one byte, so no loop runs out of steps counted down from it.
-/

namespace Telemetry.Json

/-- Takes a value from the front of the input, or stops at the first defect. -/
abbrev Reader := ReaderT Nat (StateT Bytes (Except Defect))

namespace Reader

/-- Stops reading. -/
def fail {α : Type} (d : Defect) : Reader α := throw d

def isBlank (b : UInt8) : Bool := b = 0x20 || b = 0x0a || b = 0x09 || b = 0x0d

/-- Drops blanks and shows the byte that follows them, without taking it. -/
def next : Reader (Option UInt8) := fun _ input =>
  let rest := input.dropWhile isBlank
  .ok (rest.head?, rest)

/-- Drops the byte that was shown. -/
def skip : Reader Unit := fun _ input => .ok ((), input.tail)

/-- Takes exactly the given bytes. -/
def literal : Bytes → Reader Unit
  | [] => pure ()
  | b :: bs => fun limit input =>
    match input with
    | c :: rest => if b = c then literal bs limit rest else .error .malformed
    | [] => .error .malformed

/-- Takes exactly the given ASCII word. -/
def word (s : String) : Reader Unit := literal (Bytes.ofText s)

/-! ## Texts -/

def hexDigit (b : UInt8) : Option Nat :=
  let n := b.toNat
  if 0x30 ≤ n ∧ n ≤ 0x39 then some (n - 0x30)
  else if 0x61 ≤ n ∧ n ≤ 0x66 then some (n - 0x61 + 10)
  else if 0x41 ≤ n ∧ n ≤ 0x46 then some (n - 0x41 + 10)
  else none

/-- Four hexadecimal digits. -/
def codeUnit : Bytes → Option (Nat × Bytes)
  | a :: b :: c :: d :: rest =>
    match hexDigit a, hexDigit b, hexDigit c, hexDigit d with
    | some a, some b, some c, some d => some (((a * 16 + b) * 16 + c) * 16 + d, rest)
    | _, _, _, _ => none
  | _ => none

/-- The character behind a backslash and `u`: one unit, or a pair of surrogates of
which the second is escaped too. -/
def escapedChar (input : Bytes) : Option (Char × Bytes) :=
  match codeUnit input with
  | none => none
  | some (high, rest) =>
    if 0xdc00 ≤ high ∧ high ≤ 0xdfff then none
    else if 0xd800 ≤ high ∧ high ≤ 0xdbff then
      match rest with
      | 0x5c :: 0x75 :: rest =>
        match codeUnit rest with
        | some (low, rest) =>
          if 0xdc00 ≤ low ∧ low ≤ 0xdfff then
            some (Char.ofNat (0x10000 + (high - 0xd800) * 0x400 + (low - 0xdc00)), rest)
          else none
        | none => none
      | _ => none
    else some (Char.ofNat high, rest)

/-- The byte that a one-letter escape stands for. -/
def shortEscape (b : UInt8) : Option UInt8 :=
  if b = 0x22 ∨ b = 0x5c ∨ b = 0x2f then some b
  else if b = 0x62 then some 0x08
  else if b = 0x66 then some 0x0c
  else if b = 0x6e then some 0x0a
  else if b = 0x72 then some 0x0d
  else if b = 0x74 then some 0x09
  else none

/-- The bytes of a text up to its closing quote, escapes resolved. `soFar` holds
them in reverse; `fuel` bounds the number of steps by the length of the input. -/
def textBytes : Nat → Bytes → Bytes → Option (Bytes × Bytes)
  | 0, _, _ => none
  | _, _, [] => none
  | fuel + 1, soFar, b :: rest =>
    if b = 0x22 then some (soFar.reverse, rest)
    else if b = 0x5c then
      match rest with
      | [] => none
      | e :: rest =>
        if e = 0x75 then
          match escapedChar rest with
          | some (c, rest) =>
            textBytes fuel ((Bytes.ofText c.toString).reverse ++ soFar) rest
          | none => none
        else
          match shortEscape e with
          | some b => textBytes fuel (b :: soFar) rest
          | none => none
    else if b.toNat < 0x20 then none
    else textBytes fuel (b :: soFar) rest

/-- A text behind its opening quote. -/
def quotedText : Reader String := fun limit input =>
  match textBytes limit [] input with
  | none => .error .malformed
  | some (bytes, rest) =>
    match Bytes.toText? bytes with
    | some s => .ok (s, rest)
    | none => .error .malformed

/-! ## Numbers -/

inductive Number
  | natural (n : Nat)
  | negative (i : Int)
  | real (x : Binary64)

/-- What a number is when it stands in the wrong place. -/
def Number.found : Number → Found
  | .natural n => .integer n
  | .negative i => .integer i
  | .real x => .real x

def digit (b : UInt8) : Option Nat :=
  if 0x30 ≤ b.toNat ∧ b.toNat ≤ 0x39 then some (b.toNat - 0x30) else none

/-- A run of digits behind a significand: as many as still fit sixty-four bits
extend it (`taken`), and from the first that does not, all are left out
(`dropped`). -/
structure Run where
  significand : Nat
  taken : Nat
  dropped : Nat
  rest : Bytes

def digits (significand taken dropped : Nat) : Bytes → Run
  | [] => ⟨significand, taken, dropped, []⟩
  | b :: rest =>
    match digit b with
    | none => ⟨significand, taken, dropped, b :: rest⟩
    | some d =>
      if dropped = 0 ∧ significand * 10 + d < UInt64.size then
        digits (significand * 10 + d) (taken + 1) 0 rest
      else digits significand taken (dropped + 1) rest

/-- A significand times a power of ten, both rounded before they are combined. A
power beyond the range of a double is applied in steps; a result without bound is a
defect, one too small is zero. -/
def scaled (x : Binary64) (exponent : Int) : Except Defect Binary64 :=
  if exponent.natAbs ≤ 308 then
    let power := Binary64.ofNat (Nat.pow 10 exponent.natAbs)
    if 0 ≤ exponent then
      let y := x.mul power
      if y.isInfinite then .error .malformed else .ok y
    else .ok (x.div power)
  else if x.isZero then .ok x
  else if h : 0 ≤ exponent then .error .malformed
  else scaled (x.div (Binary64.ofNat (Nat.pow 10 308))) (exponent + 308)
termination_by exponent.natAbs
decreasing_by omega

/-- The real with the given sign, significand and power of ten. -/
def realOf (negative : Bool) (significand : Nat) (exponent : Int) : Except Defect Binary64 :=
  (scaled (Binary64.ofNat significand) exponent).map fun x => if negative then x.neg else x

/-- The largest power of ten that is counted. -/
def largestExponent : Nat := 1 <<< 31 - 1

/-- The power of ten behind `e`, with the end of the number. -/
def realWithExponent (negative : Bool) (significand : Nat) (exponent : Int)
    (input : Bytes) : Except Defect (Binary64 × Bytes) :=
  let (down, body) :=
    match input with
    | 0x2b :: r => (false, r)
    | 0x2d :: r => (true, r)
    | r => (false, r)
  match body with
  | [] => .error .malformed
  | b :: _ =>
    if (digit b).isNone then .error .malformed
    else
      let power := (body.takeWhile fun b => (digit b).isSome).foldl
        (fun n b => n * 10 + (b.toNat - 0x30)) 0
      let rest := body.dropWhile fun b => (digit b).isSome
      if largestExponent < power then
        if significand ≠ 0 ∧ !down then .error .malformed
        else .ok (Binary64.ofCode negative 0, rest)
      else
        let exponent := if down then exponent - power else exponent + power
        (realOf negative significand exponent).map fun x => (x, rest)

/-- What may follow the whole digits of a number: a fraction, a power of ten, both
or neither (`whole`). -/
def numberTail (negative : Bool) (run : Run) : Except Defect (Number × Bytes) :=
  match run.rest with
  | 0x2e :: rest =>
    match rest with
    | [] => .error .malformed
    | b :: _ =>
      if (digit b).isNone then .error .malformed
      else
        let fraction := digits run.significand 0 0 rest
        let exponent : Int := run.dropped - fraction.taken
        match fraction.rest with
        | e :: rest =>
          if e = 0x65 ∨ e = 0x45 then
            (realWithExponent negative fraction.significand exponent rest).map
              fun (x, rest) => (.real x, rest)
          else
            (realOf negative fraction.significand exponent).map
              fun x => (.real x, fraction.rest)
        | [] =>
          (realOf negative fraction.significand exponent).map fun x => (.real x, [])
  | e :: rest =>
    if e = 0x65 ∨ e = 0x45 then
      (realWithExponent negative run.significand run.dropped rest).map
        fun (x, rest) => (.real x, rest)
    else whole
  | [] => whole
where
  whole : Except Defect (Number × Bytes) :=
    if run.dropped ≠ 0 then
      (realOf negative run.significand run.dropped).map fun x => (.real x, run.rest)
    else if !negative then .ok (.natural run.significand, run.rest)
    else if run.significand = 0 ∨ 1 <<< 63 < run.significand then
      .ok (.real (Binary64.ofNat run.significand).neg, run.rest)
    else .ok (.negative (-(run.significand : Int)), run.rest)

/-- A number behind its sign, if it had one. A zero is not followed by more whole
digits. -/
def number (negative : Bool) : Reader Number := fun _ input =>
  match input with
  | [] => .error .malformed
  | b :: rest =>
    match digit b with
    | none => .error .malformed
    | some 0 =>
      match rest with
      | c :: _ =>
        if (digit c).isSome then .error .malformed
        else numberTail negative ⟨0, 1, 0, rest⟩
      | [] => numberTail negative ⟨0, 1, 0, rest⟩
    | some _ => numberTail negative (digits 0 0 0 input)

/-! ## Values of a known type -/

/-- Reads enough of a value of the wrong type to say what it is. -/
def wrongType {α : Type} (expected : String) (b : UInt8) : Reader α := do
  let found ←
    if b = 0x6e then do word "null"; pure Found.null
    else if b = 0x74 then do word "true"; pure (Found.boolean true)
    else if b = 0x66 then do word "false"; pure (Found.boolean false)
    else if b = 0x2d then do skip; pure (← number true).found
    else if (digit b).isSome then pure (← number false).found
    else if b = 0x22 then do skip; pure (Found.text (← quotedText))
    else if b = 0x5b then pure Found.list
    else if b = 0x7b then pure Found.object
    else fail .malformed
  fail (.mismatch found expected)

/-- The byte that begins the next value. -/
def start : Reader UInt8 := do
  match ← next with
  | none => fail .malformed
  | some b => pure b

def text (expected : String) : Reader String := do
  let b ← start
  if b = 0x22 then do skip; quotedText else wrongType expected b

def bool : Reader Bool := do
  let b ← start
  if b = 0x74 then do word "true"; pure true
  else if b = 0x66 then do word "false"; pure false
  else wrongType "a boolean" b

/-- A number of any class. -/
def anyNumber (expected : String) : Reader Number := do
  let b ← start
  if b = 0x2d then do skip; number true
  else if (digit b).isSome then number false
  else wrongType expected b

/-- A double; integers are rounded to one. -/
def real : Reader Binary64 := do
  match ← anyNumber "f64" with
  | .natural n => pure (Binary64.ofNat n)
  | .negative i => pure (Binary64.ofInt i)
  | .real x => pure x

/-- An integer from `low` to `high`, called `expected` in messages. -/
def integer (expected : String) (low high : Int) : Reader Int := do
  match ← anyNumber expected with
  | .natural n =>
    if (n : Int) ≤ high then pure n else fail (.outOfRange (.integer n) expected)
  | .negative i =>
    if low ≤ i then pure i else fail (.outOfRange (.integer i) expected)
  | .real x => fail (.mismatch (.real x) expected)

def int64 : Reader Int64 := do
  pure (Int64.ofInt (← integer "i64" Int64.minValue.toInt Int64.maxValue.toInt))

/-- A natural number below `2 ^ bits`. -/
def natural (expected : String) (bits : Nat) : Reader Nat := do
  pure (← integer expected 0 (1 <<< bits - 1 : Nat)).toNat

/-- A value that may be `null`. -/
def nullable {α : Type} (item : Reader α) : Reader (Option α) := do
  match ← next with
  | some 0x6e => do word "null"; pure none
  | _ => do pure (some (← item))

/-! ## Words of a fixed list -/

def knownWord {α : Type} (known : List String) (pick : String → Option α) (s : String) :
    Reader α :=
  match pick s with
  | some a => pure a
  | none => fail (.unknownWord s known)

/-- One of a list of words, either as a text or as an object whose only key it is
and whose value is `null`. -/
def choice {α : Type} (known : List String) (pick : String → Option α) : Reader α := do
  let b ← start
  if b = 0x22 then do skip; knownWord known pick (← quotedText)
  else if b = 0x7b then do
    skip
    let a ← knownWord known pick (← text "variant identifier")
    match ← next with
    | some 0x3a => skip
    | _ => fail .malformed
    let v ← start
    if v = 0x6e then word "null" else wrongType "unit" v
    match ← next with
    | some 0x7d => do skip; pure a
    | _ => fail .malformed
  else fail .malformed

/-! ## Lists -/

/-- Whether another element follows, the separating comma taken. -/
def moreElements (isFirst : Bool) : Reader Bool := do
  match ← next with
  | none => fail .malformed
  | some 0x5d => pure false
  | some b =>
    if isFirst then pure true
    else if b = 0x2c then do
      skip
      match ← next with
      | some 0x5d => fail .malformed
      | some _ => pure true
      | none => fail .malformed
    else fail .malformed

/-- The closing bracket. -/
def close (b : UInt8) : Reader Unit := do
  match ← next with
  | some c => if b = c then skip else fail .malformed
  | none => fail .malformed

/-- The elements of a list after those that are read, the latest of them first. -/
def elements {α : Type} (item : Reader α) : Nat → Bool → List α → Reader (List α)
  | 0, _, _ => fail .malformed
  | fuel + 1, isFirst, soFar => do
    if ← moreElements isFirst then
      let a ← item
      elements item fuel false (a :: soFar)
    else pure soFar.reverse

/-- A list of values of one type. -/
def list {α : Type} (item : Reader α) : Reader (List α) := do
  let b ← start
  if b = 0x5b then do
    skip
    let items ← elements item (← read) true []
    close 0x5d
    pure items
  else wrongType "a sequence" b

/-- The value of a whole document: nothing but blanks may follow it. -/
def parse {α : Type} (item : Reader α) (document : Bytes) : Except Defect α :=
  match item (document.length + 1) document with
  | .error d => .error d
  | .ok (a, rest) => if rest.all isBlank then .ok a else .error .malformed

end Reader

end Telemetry.Json
