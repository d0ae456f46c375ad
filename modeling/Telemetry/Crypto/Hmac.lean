import Telemetry.Crypto.Sha256
import Telemetry.Fault
import Telemetry.Hex
import Telemetry.Text.Blank

/-!
# Signatures of payloads

A signature is HMAC with SHA-256 under a shared key, written in hexadecimal. A
signature in a header may stand between blanks and in either case; what counts is
that it decodes to exactly the code that the key gives for the payload.
-/

namespace Telemetry

/-- A key of the length of one block: a longer one is hashed, a shorter one filled
up with zeros. -/
def Hmac.blockKey (key : Bytes) : Bytes :=
  let key := if 64 < key.length then Sha256.digest key else key
  key ++ List.replicate (64 - key.length) 0

/-- The message authentication code of a payload. -/
def Hmac.code (key payload : Bytes) : Bytes :=
  let key := Hmac.blockKey key
  let inner := Sha256.digest (key.map (· ^^^ 0x36) ++ payload)
  Sha256.digest (key.map (· ^^^ 0x5c) ++ inner)

/-- Signs and checks payloads under one shared key. -/
structure Signer where
  key : Bytes
deriving DecidableEq

namespace Signer

/-- The signature as it is sent: sixty-four lower-case digits. -/
def sign (s : Signer) (payload : Bytes) : String := Hex.encode (Hmac.code s.key payload)

/-- Accepts a signature that decodes to the code of the payload. -/
def verify (s : Signer) (payload : Bytes) (signature : String) : Except Fault Unit :=
  match Hex.decode (Text.trim signature) with
  | none => .error (.signature .notHex)
  | some code =>
    if code = Hmac.code s.key payload then .ok () else .error (.signature .mismatch)

-- the second test case of RFC 4231
example : (Signer.mk (Bytes.ofText "Jefe")).sign (Bytes.ofText "what do ya want for nothing?") =
    "5bdcc146bf60754e6a042426089575c75a003f089d2739839dec58b964ec3843" := by decide +kernel

end Signer

end Telemetry
