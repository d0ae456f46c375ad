import Telemetry.Bytes

/-!
# Text armour

A key file wraps bytes into text: a line that begins them under a label, their base
64 digits in lines of sixty-four, and a line that ends them under the same label.
Reading is strict. Text may come before the first line, but after the last only an end
of line; every line but the last is full; digits that no writer would produce are
refused.
-/

namespace Telemetry.Pem

/-- Bytes under a label. -/
structure Block where
  label : Bytes
  content : Bytes

def beginMark : Bytes := Bytes.ofText "-----BEGIN "
def endMark : Bytes := Bytes.ofText "-----END "
def dashes : Bytes := Bytes.ofText "-----"

/-- What follows a prefix. -/
def after? (front : Bytes) (b : Bytes) : Option Bytes :=
  if front.isPrefixOf b then some (b.drop front.length) else none

/-- What comes before a suffix. -/
def before? (back : Bytes) (b : Bytes) : Option Bytes :=
  if back.isSuffixOf b then some (b.take (b.length - back.length)) else none

/-- Drops lines of other text before the first mark. A zero byte ends the search. -/
def skipPreamble : Bytes → Option Bytes
  | [] => none
  | b :: rest =>
    if b = 0x00 then none
    else if b = 0x0a && beginMark.isPrefixOf rest then some rest
    else skipPreamble rest

def isLabelByte (b : UInt8) : Bool :=
  (0x21 ≤ b && b ≤ 0x2c) || (0x2e ≤ b && b ≤ 0x7e)

/-- The label in front of the dashes: printable characters with single blanks
between them. -/
def takeLabel (isFirst afterBlank : Bool) : Bytes → Option (Bytes × Bytes)
  | [] => some ([], [])
  | b :: rest =>
    if isLabelByte b then (takeLabel false false rest).map fun (l, r) => (b :: l, r)
    else if b = 0x2d then some ([], b :: rest)
    else if !isFirst && (b = 0x20 || b = 0x09) && !afterBlank then
      (takeLabel false true rest).map fun (l, r) => (b :: l, r)
    else none

/-- What follows one end of line. -/
def afterLineEnd? : Bytes → Option Bytes
  | 0x0d :: 0x0a :: rest => some rest
  | 0x0a :: rest => some rest
  | 0x0d :: rest => some rest
  | _ => none

/-- What comes before one end of line. -/
def beforeLineEnd? (b : Bytes) : Option Bytes :=
  match b.reverse with
  | 0x0a :: 0x0d :: rest => some rest.reverse
  | 0x0a :: rest => some rest.reverse
  | 0x0d :: rest => some rest.reverse
  | _ => none

/-- The digits of all lines, without the line ends between them. -/
def joinLines : Nat → Bytes → Option Bytes
  | 0, _ => none
  | fuel + 1, text =>
    let line := text.take 64
    let rest := text.drop 64
    if rest.isEmpty then
      some (line.reverse.dropWhile fun b => b = 0x0a || b = 0x0d).reverse
    else
      match afterLineEnd? rest with
      | none => none
      | some rest => if rest.isEmpty then some line else (joinLines fuel rest).map (line ++ ·)

def digit? (b : UInt8) : Option Nat :=
  let n := b.toNat
  if 0x41 ≤ n ∧ n ≤ 0x5a then some (n - 0x41)
  else if 0x61 ≤ n ∧ n ≤ 0x7a then some (n - 0x61 + 26)
  else if 0x30 ≤ n ∧ n ≤ 0x39 then some (n - 0x30 + 52)
  else if n = 0x2b then some 62
  else if n = 0x2f then some 63
  else none

/-- The bytes of base 64 digits in groups of four. Only the last group may be padded,
and the bits that its padding leaves over are zero. -/
def decode : Bytes → Option Bytes
  | [] => some []
  | [a, b, 0x3d, 0x3d] =>
    match digit? a, digit? b with
    | some a, some b => if b % 16 = 0 then some [(a * 4 + b / 16).toUInt8] else none
    | _, _ => none
  | [a, b, c, 0x3d] =>
    match digit? a, digit? b, digit? c with
    | some a, some b, some c =>
      if c % 4 = 0 then
        some [(a * 4 + b / 16).toUInt8, (b % 16 * 16 + c / 4).toUInt8]
      else none
    | _, _, _ => none
  | a :: b :: c :: d :: rest =>
    match digit? a, digit? b, digit? c, digit? d, decode rest with
    | some a, some b, some c, some d, some tail =>
      some ((a * 4 + b / 16).toUInt8 :: (b % 16 * 16 + c / 4).toUInt8 ::
        (c % 4 * 64 + d).toUInt8 :: tail)
    | _, _, _, _, _ => none
  | _ => none

/-- The only block of a text. -/
def parse (text : Bytes) : Option Block := do
  let text ← if beginMark.isPrefixOf text then some text else skipPreamble text
  let text ← after? beginMark text
  let (label, text) ← takeLabel true false text
  let text ← after? dashes text
  let text ← afterLineEnd? text
  let text := (beforeLineEnd? text).getD text
  let text ← before? dashes text
  let text ← before? label text
  let text ← before? endMark text
  let text ← beforeLineEnd? text
  let digits ← joinLines (text.length + 1) text
  let content ← decode digits
  pure ⟨label, content⟩

end Telemetry.Pem
