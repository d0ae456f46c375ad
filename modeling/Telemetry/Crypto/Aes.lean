import Telemetry.Bytes

/-!
# AES with a key of 256 bits

One direction is enough: counter mode and the authentication tag only encrypt blocks.
A block is sixteen bytes, column after column. The substitution table is computed from
its definition, inverse in the field of 256 elements and then an affine map.
-/

namespace Telemetry.Aes

/-- Product with `x` in the field of 256 elements. -/
def double (b : UInt8) : UInt8 :=
  if b &&& 0x80 = 0 then b <<< 1 else (b <<< 1) ^^^ 0x1b

/-- Product in the field of 256 elements. -/
def product (a b : UInt8) : UInt8 :=
  ((List.range 8).foldl
    (fun (acc : UInt8 × UInt8) i =>
      (if (b >>> i.toUInt8) &&& 1 = 1 then acc.1 ^^^ acc.2 else acc.1, double acc.2))
    (0, a)).1

/-- The inverse in the field, the 254th power; zero stays zero. -/
def inverse (a : UInt8) : UInt8 :=
  (List.range 253).foldl (fun acc _ => product acc a) a

def rotateByte (b : UInt8) (n : UInt8) : UInt8 := (b <<< n) ||| (b >>> (8 - n))

def substituteOf (a : UInt8) : UInt8 :=
  let b := inverse a
  b ^^^ rotateByte b 1 ^^^ rotateByte b 2 ^^^ rotateByte b 3 ^^^ rotateByte b 4 ^^^ 0x63

/-- The substitution table. -/
def table : Array UInt8 := ((List.range 256).map fun i => substituteOf i.toUInt8).toArray

def substitute (b : UInt8) : UInt8 := table.getD b.toNat 0

abbrev Word := List UInt8

def addWords (a b : Word) : Word := List.zipWith (· ^^^ ·) a b

/-- The words of an expanded key, the latest first. -/
def expandStep (soFar : List Word) (i : Nat) : List Word :=
  let last := soFar.getD 0 []
  let back := soFar.getD 7 []
  let mixed :=
    if i % 8 = 0 then
      let turned := (last.drop 1 ++ last.take 1).map substitute
      addWords turned [(List.range (i / 8 - 1)).foldl (fun b _ => double b) 1, 0, 0, 0]
    else if i % 8 = 4 then last.map substitute
    else last
  addWords back mixed :: soFar

def wordsOf : Nat → Bytes → List Word
  | 0, _ => []
  | n + 1, bytes => bytes.take 4 :: wordsOf n (bytes.drop 4)

/-- The fifteen round keys of a key of thirty-two bytes. -/
def roundKeys (key : Bytes) : List Bytes :=
  let words :=
    ((List.range 52).foldl (fun acc i => expandStep acc (i + 8)) (wordsOf 8 key).reverse).reverse
  (List.range 15).map fun i => ((words.drop (4 * i)).take 4).flatten

/-- Each row moves left by its number. -/
def shiftRows (b : Bytes) : Bytes :=
  [0, 5, 10, 15, 4, 9, 14, 3, 8, 13, 2, 7, 12, 1, 6, 11].map fun i => b.getD i 0

def mixColumn : Bytes → Bytes
  | [a, b, c, d] =>
    [double a ^^^ double b ^^^ b ^^^ c ^^^ d, a ^^^ double b ^^^ double c ^^^ c ^^^ d,
      a ^^^ b ^^^ double c ^^^ double d ^^^ d, double a ^^^ a ^^^ b ^^^ c ^^^ double d]
  | other => other

def mixColumns (b : Bytes) : Bytes := (wordsOf 4 b).flatMap mixColumn

/-- One block under expanded keys. -/
def encryptBlock (keys : List Bytes) (block : Bytes) : Bytes :=
  match keys with
  | [] => block
  | first :: rest =>
    let middle := rest.dropLast.foldl
      (fun b key => addWords (mixColumns (shiftRows (b.map substitute))) key)
      (addWords block first)
    addWords (shiftRows (middle.map substitute)) (rest.getLastD [])

end Telemetry.Aes
