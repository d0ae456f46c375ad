import Telemetry.Crypto.Aes

/-!
# Authenticated encryption of a body

Counter mode under AES with a tag of sixteen bytes behind the text. Every key is used
for one text only, so the nonce is always twelve zero bytes. A text with a wrong tag
does not open.
-/

namespace Telemetry.Gcm

/-- The number that sixteen bytes are, most significant first. -/
def number (b : Bytes) : Nat := b.foldl (fun n x => n * 256 + x.toNat) 0

def bytesOf (count n : Nat) : Bytes :=
  (List.range count).map fun i => (n >>> (8 * (count - 1 - i))).toUInt8

/-- Product in the field of 2^128 elements, the most significant bit standing for the
constant term. -/
def productLoop : Nat → Nat → Nat → Nat → Nat
  | 0, _, _, sum => sum
  | bits + 1, x, v, sum =>
    let sum := if x.testBit bits then sum ^^^ v else sum
    let v := if v % 2 = 1 then (v >>> 1) ^^^ (0xe1 <<< 120) else v >>> 1
    productLoop bits x v sum

def product (x y : Nat) : Nat := productLoop 128 x y 0

/-- Folds blocks of a text into a hash, the last one filled up with zeros. -/
def hashBlocks (h : Nat) : Nat → Nat → Bytes → Nat
  | 0, sum, _ => sum
  | blocks + 1, sum, text =>
    let block := text.take 16
    let filled := block ++ List.replicate (16 - block.length) 0
    hashBlocks h blocks (product (sum ^^^ number filled) h) (text.drop 16)

/-- The hash of a text without additional data, its length included. -/
def hash (h : Nat) (text : Bytes) : Nat :=
  product (hashBlocks h ((text.length + 15) / 16) 0 text ^^^ (8 * text.length)) h

/-- The counter block number `n`. -/
def counterBlock (n : Nat) : Bytes := List.replicate 12 0 ++ bytesOf 4 n

/-- Adds the key stream from counter `n` on; `soFar` is the result in reverse. -/
def stream (keys : List Bytes) : Nat → Nat → Bytes → Bytes → Bytes
  | 0, _, soFar, _ => soFar.reverse
  | blocks + 1, n, soFar, text =>
    let part := Aes.addWords (text.take 16) (Aes.encryptBlock keys (counterBlock n))
    stream keys blocks (n + 1) (part.reverse ++ soFar) (text.drop 16)

def applyStream (keys : List Bytes) (text : Bytes) : Bytes :=
  stream keys ((text.length + 15) / 16) 2 [] text

/-- The tag of an encrypted text. -/
def tag (keys : List Bytes) (sealedText : Bytes) : Bytes :=
  let h := number (Aes.encryptBlock keys (List.replicate 16 0))
  Aes.addWords (bytesOf 16 (hash h sealedText)) (Aes.encryptBlock keys (counterBlock 1))

/-- The encrypted text with its tag. -/
def encrypt (key plain : Bytes) : Bytes :=
  let keys := Aes.roundKeys key
  let text := applyStream keys plain
  text ++ tag keys text

/-- The text, if its tag is right. -/
def decrypt (key sealedText : Bytes) : Option Bytes :=
  let keys := Aes.roundKeys key
  if sealedText.length < 16 then none
  else
    let text := sealedText.take (sealedText.length - 16)
    if tag keys text = sealedText.drop (sealedText.length - 16) then
      some (applyStream keys text)
    else none

end Telemetry.Gcm
