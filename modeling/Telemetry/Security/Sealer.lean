import Telemetry.Crypto.Envelope
import Telemetry.Crypto.Hmac

/-!
# How a sender seals a payload

The signature is always that of the plain payload; if there is a public key, the body
that travels is an envelope.
-/

namespace Telemetry

/-- A payload ready to be sent. -/
structure Parcel where
  body : Bytes
  signature : Option String
  isEnvelope : Bool

structure Sealer where
  signer : Option Signer
  encryptor : Option Encryptor

def Sealer.pack (s : Sealer) (seed : EnvelopeSeed) (plain : Bytes) : Except Fault Parcel :=
  let signature := s.signer.map fun signer => signer.sign plain
  match s.encryptor with
  | none => .ok ⟨plain, signature, false⟩
  | some e => (e.encrypt seed plain).map fun envelope => ⟨envelope, signature, true⟩

end Telemetry
