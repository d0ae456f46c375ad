import Telemetry.Crypto.Envelope
import Telemetry.Crypto.Hmac
import Telemetry.Network.Subnet
import Telemetry.Text.Quoted

/-!
# What a server asks of a request

Three checks that both transports share, in this order: the peer's address lies in the
trusted network (`checkPeer`); a body marked as an envelope opens (`openBody`); the
signature fits the plain body (`verify`). Each is skipped where nothing is configured
for it, except that an envelope without a key to open it does not open.
-/

namespace Telemetry

structure Guard where
  signer : Option Signer
  decryptor : Option Decryptor
  trusted : Option Subnet

namespace Guard

/-- Whether requests must be signed and answers are. -/
def signs (g : Guard) : Bool := g.signer.isSome

/-- Admits a peer by the address that it states. -/
def checkPeer (g : Guard) (stated : Option String) : Except Fault Unit :=
  match g.trusted with
  | none => .ok ()
  | some network =>
    let raw := Text.trim (stated.getD "")
    match IpAddress.ofText? raw with
    | none => .error (.forbidden ("에이전트 IP 확인 불가: " ++ Text.quoted raw))
    | some ip =>
      if network.contains ip then .ok ()
      else .error (.forbidden (ip.text ++ "는 신뢰 서브넷 밖"))

/-- The plain body. -/
def openBody (g : Guard) (body : Bytes) (isEnvelope : Bool) : Except Fault Bytes :=
  if !isEnvelope then .ok body
  else
    match g.decryptor with
    | none => .error .decrypt
    | some d => d.decrypt body

/-- Checks the signature of a plain body. -/
def verify (g : Guard) (plain : Bytes) (signature : Option String) : Except Fault Unit :=
  match g.signer, signature with
  | none, _ => .ok ()
  | some _, none => .error (.signature .absent)
  | some signer, some s => signer.verify plain s

/-- The signature of an answer. -/
def sign (g : Guard) (body : Bytes) : Option String := g.signer.map fun s => s.sign body

end Guard

end Telemetry
