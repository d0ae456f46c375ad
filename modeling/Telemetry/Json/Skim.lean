import Telemetry.Json.Reader

/-!
# Skimming values that nobody asked for

A field that a record does not know is skipped, but it must be well formed. The
automaton here passes over one value byte by byte, with a stack of the lists and
objects it is in; it keeps nothing of what it passes. Texts are not decoded, numbers
are not computed, and there is no limit on nesting.
-/

namespace Telemetry.Json.Skim

inductive Frame
  | list
  | object
deriving DecidableEq

/-- Where the automaton stands. -/
inductive Mode
  | value
  | firstElement
  | firstKey
  | key
  | colon
  | literal (rest : Bytes)
  | text (isKey : Bool)
  | escape (isKey : Bool)
  | escapeDigits (isKey : Bool) (left : Nat)
  | minus
  | zero
  | whole
  | point
  | fraction
  | exponent
  | exponentSign
  | exponentDigits
  | done
deriving DecidableEq

/-- Whether a value may end here. -/
def Mode.complete : Mode → Bool
  | .zero | .whole | .fraction | .exponentDigits | .done => true
  | _ => false

def isDigit (b : UInt8) : Bool := 0x30 ≤ b && b ≤ 0x39

def isExponentMark (b : UInt8) : Bool := b = 0x65 || b = 0x45

/-- The mode that a byte continues a number in. -/
def numberStep (mode : Mode) (b : UInt8) : Option Mode :=
  match mode with
  | .zero =>
    if b = 0x2e then some .point else if isExponentMark b then some .exponent else none
  | .whole =>
    if isDigit b then some .whole
    else if b = 0x2e then some .point
    else if isExponentMark b then some .exponent else none
  | .fraction =>
    if isDigit b then some .fraction else if isExponentMark b then some .exponent else none
  | .exponentDigits => if isDigit b then some .exponentDigits else none
  | _ => none

/-- A byte behind a finished value inside a list or an object. -/
def closeStep (stack : List Frame) (b : UInt8) : Option (Mode × List Frame) :=
  if Reader.isBlank b then some (.done, stack)
  else
    match stack with
    | .list :: outer =>
      if b = 0x2c then some (.value, stack)
      else if b = 0x5d then some (.done, outer) else none
    | .object :: outer =>
      if b = 0x2c then some (.key, stack)
      else if b = 0x7d then some (.done, outer) else none
    | [] => none

/-- A byte where a value begins. -/
def valueStep (stack : List Frame) (b : UInt8) : Option (Mode × List Frame) :=
  if b = 0x22 then some (.text false, stack)
  else if b = 0x5b then some (.firstElement, .list :: stack)
  else if b = 0x7b then some (.firstKey, .object :: stack)
  else if b = 0x2d then some (.minus, stack)
  else if b = 0x30 then some (.zero, stack)
  else if isDigit b then some (.whole, stack)
  else if b = 0x6e then some (.literal (Bytes.ofText "ull"), stack)
  else if b = 0x74 then some (.literal (Bytes.ofText "rue"), stack)
  else if b = 0x66 then some (.literal (Bytes.ofText "alse"), stack)
  else none

/-- One byte of the value; `none` if it cannot stand there. -/
def step (mode : Mode) (stack : List Frame) (b : UInt8) : Option (Mode × List Frame) :=
  let blank := Reader.isBlank b
  match mode with
  | .value => if blank then some (.value, stack) else valueStep stack b
  | .firstElement =>
    if blank then some (.firstElement, stack)
    else if b = 0x5d then some (.done, stack.tail) else valueStep stack b
  | .firstKey =>
    if blank then some (.firstKey, stack)
    else if b = 0x22 then some (.text true, stack)
    else if b = 0x7d then some (.done, stack.tail) else none
  | .key =>
    if blank then some (.key, stack)
    else if b = 0x22 then some (.text true, stack) else none
  | .colon =>
    if blank then some (.colon, stack)
    else if b = 0x3a then some (.value, stack) else none
  | .literal (c :: rest) =>
    if b = c then some (if rest.isEmpty then .done else .literal rest, stack) else none
  | .literal [] => none
  | .text isKey =>
    if b = 0x22 then some (if isKey then .colon else .done, stack)
    else if b = 0x5c then some (.escape isKey, stack)
    else if b < 0x20 then none
    else some (.text isKey, stack)
  | .escape isKey =>
    if b = 0x75 then some (.escapeDigits isKey 3, stack)
    else if (Reader.shortEscape b).isSome then some (.text isKey, stack) else none
  | .escapeDigits isKey left =>
    if (Reader.hexDigit b).isNone then none
    else if left = 0 then some (.text isKey, stack)
    else some (.escapeDigits isKey (left - 1), stack)
  | .minus =>
    if b = 0x30 then some (.zero, stack)
    else if isDigit b then some (.whole, stack) else none
  | .point => if isDigit b then some (.fraction, stack) else none
  | .exponent =>
    if b = 0x2b || b = 0x2d then some (.exponentSign, stack)
    else if isDigit b then some (.exponentDigits, stack) else none
  | .exponentSign => if isDigit b then some (.exponentDigits, stack) else none
  | .done => closeStep stack b
  | .zero =>
    if isDigit b then none
    else match numberStep .zero b with
      | some mode => some (mode, stack)
      | none => closeStep stack b
  | mode =>
    match numberStep mode b with
    | some mode => some (mode, stack)
    | none => closeStep stack b

/-- Whether the value that has been read ends before this byte. -/
def endsBefore (mode : Mode) (stack : List Frame) (b : UInt8) : Bool :=
  stack.isEmpty && mode.complete && (numberStep mode b).isNone &&
    !(mode = .zero && isDigit b)

/-- What follows one value. -/
def pass : Mode → List Frame → Bytes → Option Bytes
  | mode, stack, [] => if stack.isEmpty && mode.complete then some [] else none
  | mode, stack, b :: rest =>
    if endsBefore mode stack b then some (b :: rest)
    else
      match step mode stack b with
      | some (mode, stack) => pass mode stack rest
      | none => none

end Telemetry.Json.Skim

namespace Telemetry.Json

/-- Passes over one value of any type. -/
def Reader.anything : Reader Unit := fun _ input =>
  match Skim.pass .value [] input with
  | some rest => .ok ((), rest)
  | none => .error .malformed

end Telemetry.Json
