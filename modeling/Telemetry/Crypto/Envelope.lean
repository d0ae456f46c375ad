import Telemetry.Crypto.Gcm
import Telemetry.Crypto.Rsa
import Telemetry.Fault

/-!
# Envelopes

An envelope is a session key under the recipient's public key, followed by the body
under the session key. The first part is as long as the modulus. Whatever is wrong
with an envelope, opening it fails in one way, so that a sender of forged envelopes
learns nothing from the answers.
-/

namespace Telemetry

/-- What a sender draws anew for every envelope. -/
structure EnvelopeSeed where
  sessionKey : Bytes
  /-- bytes that are not zero, as many as a modulus may need -/
  filler : Bytes

/-- Puts bodies into envelopes for the holder of a private key. -/
structure Encryptor where
  key : Rsa.PublicKey

/-- Opens the envelopes made for its private key. -/
structure Decryptor where
  key : Rsa.PrivateKey

/-- Length of a session key. -/
def sessionKeyLength : Nat := 32

namespace Encryptor

def ofPem (text : Bytes) : Except KeyFault Encryptor :=
  match Rsa.publicKeyOfPem text with
  | some key => .ok ⟨key⟩
  | none => .error .badPublicKey

/-- Length of the part that carries the session key. -/
def keySize (e : Encryptor) : Nat := e.key.size

/-- The envelope of a body. It fails only if the modulus has no room for a session
key. -/
def encrypt (e : Encryptor) (seed : EnvelopeSeed) (plain : Bytes) : Except Fault Bytes :=
  match Rsa.wrap e.key seed.filler seed.sessionKey with
  | none => .error (.encrypt "세션 키 암호화 실패")
  | some wrapped => .ok (wrapped ++ Gcm.encrypt seed.sessionKey plain)

end Encryptor

namespace Decryptor

def ofPem (text : Bytes) : Except KeyFault Decryptor :=
  match Rsa.privateKeyOfPem text with
  | some key => .ok ⟨key⟩
  | none => .error .badPrivateKey

def keySize (d : Decryptor) : Nat := d.key.toPublic.size

/-- The body of an envelope. -/
def decrypt (d : Decryptor) (envelope : Bytes) : Except Fault Bytes :=
  if envelope.length < d.keySize then .error .decrypt
  else
    match Rsa.unwrap d.key (envelope.take d.keySize) with
    | none => .error .decrypt
    | some sessionKey =>
      if sessionKey.length ≠ sessionKeyLength then .error .decrypt
      else
        match Gcm.decrypt sessionKey (envelope.drop d.keySize) with
        | some plain => .ok plain
        | none => .error .decrypt

end Decryptor

end Telemetry
