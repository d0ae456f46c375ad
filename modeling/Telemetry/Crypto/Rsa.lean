import Telemetry.Crypto.Der
import Telemetry.Crypto.Pem

/-!
# RSA keys

Keys are read from text armour in one of two forms each, one bare and one that names
the algorithm. A key is checked when it is read: the modulus is odd and at most 4096
bits, the exponent odd and small; for a private key the primes multiply to the modulus
and the two exponents undo each other.

`wrap` and `unwrap` carry a short secret: a block of zero, two, at least eight random
bytes that are not zero, zero, and the secret.
-/

namespace Telemetry.Rsa

structure PublicKey where
  modulus : Nat
  exponent : Nat
deriving DecidableEq

structure PrivateKey where
  toPublic : PublicKey
  secret : Nat
deriving DecidableEq

/-- How many bits a number takes. -/
def bitLength (n : Nat) : Nat := if n = 0 then 0 else Nat.log2 n + 1

namespace PublicKey

/-- Length of the modulus in bytes. -/
def size (k : PublicKey) : Nat := (bitLength k.modulus + 7) / 8

def isSound (k : PublicKey) : Bool :=
  bitLength k.modulus ≤ 4096 && k.exponent < k.modulus && k.modulus % 2 = 1 &&
    k.exponent % 2 = 1 && 2 ≤ k.exponent && k.exponent < 1 <<< 33

end PublicKey

/-- Whether primes fit a private key. -/
def PrivateKey.isSound (k : PrivateKey) (p q : Nat) : Bool :=
  let product := k.toPublic.exponent * k.secret
  k.toPublic.isSound && 1 ≤ p && 1 ≤ q && p * q = k.toPublic.modulus &&
    product % (p - 1) = 1 && product % (q - 1) = 1

/-! ## Reading keys -/

def publicKeyBody : Der.Reader PublicKey :=
  Der.sequence do
    let modulus ← Der.natural
    let exponent ← Der.natural
    let k : PublicKey := ⟨modulus, exponent⟩
    if k.isSound then pure k else failure

def privateKeyBody : Der.Reader PrivateKey :=
  Der.sequence do
    let version ← Der.natural
    let modulus ← Der.natural
    let exponent ← Der.natural
    let secret ← Der.natural
    let p ← Der.natural
    let q ← Der.natural
    let _ ← Der.natural
    let _ ← Der.natural
    let _ ← Der.natural
    let k : PrivateKey := ⟨⟨modulus, exponent⟩, secret⟩
    if version = 0 && k.isSound p q then pure k else failure

/-- The identifier of the algorithm, with empty parameters. -/
def algorithm : Der.Reader Unit :=
  Der.sequence do
    let id ← Der.content 0x06
    if id = [0x2a, 0x86, 0x48, 0x86, 0xf7, 0x0d, 0x01, 0x01, 0x01] then Der.null else failure

/-- A public key that names its algorithm. -/
def namedPublicKey : Der.Reader PublicKey :=
  Der.sequence do
    algorithm
    let inner ← Der.bitString
    match Der.whole publicKeyBody inner with
    | some k => pure k
    | none => failure

/-- A private key that names its algorithm. Version one carries a public key as
well. -/
def namedPrivateKey : Der.Reader PrivateKey :=
  Der.sequence do
    let version ← Der.natural
    algorithm
    let inner ← Der.byteString
    if version = 1 then do let _ ← Der.content 0x81
    Der.contextValues ((← get).length + 1)
    match Der.whole privateKeyBody inner with
    | some k => if version ≤ 1 then pure k else failure
    | none => failure

def publicKeyOfPem (text : Bytes) : Option PublicKey := do
  let block ← Pem.parse text
  if block.label = Bytes.ofText "RSA PUBLIC KEY" then Der.whole publicKeyBody block.content
  else if block.label = Bytes.ofText "PUBLIC KEY" then Der.whole namedPublicKey block.content
  else none

def privateKeyOfPem (text : Bytes) : Option PrivateKey := do
  let block ← Pem.parse text
  if block.label = Bytes.ofText "RSA PRIVATE KEY" then Der.whole privateKeyBody block.content
  else if block.label = Bytes.ofText "PRIVATE KEY" then Der.whole namedPrivateKey block.content
  else none

/-! ## Carrying a secret -/

/-- `base ^ exponent % modulus`, bit by bit. -/
def powerMod (base exponent modulus : Nat) : Nat :=
  if h : exponent = 0 then 1 % modulus
  else
    let half := powerMod (base * base % modulus) (exponent / 2) modulus
    if exponent % 2 = 1 then base * half % modulus else half
termination_by exponent
decreasing_by omega

def bytesOf (count n : Nat) : Bytes :=
  (List.range count).map fun i => (n >>> (8 * (count - 1 - i)) % 256).toUInt8

/-- The block that carries a secret, encrypted. `filler` gives the random bytes; the
secret must leave room for eight of them. -/
def wrap (k : PublicKey) (filler secret : Bytes) : Option Bytes :=
  if k.size < secret.length + 11 then none
  else
    let random := filler.take (k.size - secret.length - 3)
    let block := 0 :: 2 :: (random ++ 0 :: secret)
    some (bytesOf k.size (powerMod (Der.number block) k.exponent k.modulus))

/-- The secret in a block: behind the first zero after at least eight other bytes. -/
def secretOf : Bytes → Option Bytes
  | 0 :: 2 :: rest =>
    let filler := rest.takeWhile (· ≠ 0)
    if filler.length < 8 ∨ filler.length = rest.length then none
    else some (rest.drop (filler.length + 1))
  | _ => none

/-- The secret that an encrypted block carries. -/
def unwrap (k : PrivateKey) (block : Bytes) : Option Bytes :=
  let c := Der.number block
  if k.toPublic.modulus ≤ c then none
  else
    let m := powerMod c k.secret k.toPublic.modulus
    if powerMod m k.toPublic.exponent k.toPublic.modulus ≠ c then none
    else secretOf (bytesOf k.toPublic.size m)

end Telemetry.Rsa
