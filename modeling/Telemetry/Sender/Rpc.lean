import Telemetry.Network.Endpoint
import Telemetry.Network.Locator
import Telemetry.Rpc.Service
import Telemetry.Security.Sealer
import Telemetry.Sender.Basic

/-!
# Sending by remote calls

Metrics travel as messages, or as an envelope with their JSON document if there is a
public key. The signature is that of the document in both cases.
-/

namespace Telemetry

/-- How remote calls are made. -/
structure RpcChannel (m : Type → Type) where
  setMetric : Rpc.Request → m (Except RpcStatus (Option MetricMessage))
  setMetrics : Rpc.Request → m (Except RpcStatus (List MetricMessage))

structure RpcSender where
  /-- the locator of the server -/
  endpoint : String
  sealer : Sealer
  /-- the own address, which is told to the server -/
  address : Option IpAddress
  isClosed : Bool

namespace RpcSender

/-- The locator of an address. -/
def endpointOf (address : String) : String :=
  let trimmed := String.ofList (Endpoint.dropTrailing '/' (Text.trim address).toList)
  if (Locator.splitScheme [] trimmed.toList).isSome then trimmed else "http://" ++ trimmed

/-- A sender that neither signs nor encrypts. -/
def ofAddress (address : String) : Except Fault RpcSender :=
  let endpoint := endpointOf address
  if Locator.isSound endpoint then .ok ⟨endpoint, ⟨none, none⟩, none, false⟩
  else .error (.network "invalid gRPC endpoint")

def metadata (s : RpcSender) (parcel : Parcel) : List (String × Bytes) :=
  ((parcel.signature.map fun signature => (Rpc.signatureKey, signature)).toList ++
    (if parcel.isEnvelope then [(Rpc.envelopeKey, "true")] else []) ++
    (s.address.map fun ip => (Rpc.addressKey, ip.text)).toList).map fun e =>
      (e.1, Bytes.ofText e.2)

/-- A request with a payload, which an envelope takes the place of. -/
def request (s : RpcSender) (seed : EnvelopeSeed) (document : Bytes)
    (plain withEnvelope : Rpc.Payload) : Except Fault Rpc.Request :=
  (s.sealer.pack seed document).map fun parcel =>
    { metadata := s.metadata parcel
      payload := if parcel.isEnvelope then withEnvelope else plain
      envelope := if parcel.isEnvelope then parcel.body else [] }

def singleRequest (s : RpcSender) (seed : EnvelopeSeed) (metric : Metric) :
    Except Fault Rpc.Request :=
  s.request seed metric.documentBytes (.metric (some (.ofMetric metric))) (.metric none)

def batchRequest (s : RpcSender) (seed : EnvelopeSeed) (metrics : List Metric) :
    Except Fault Rpc.Request :=
  s.request seed (Metric.listDocumentBytes metrics) (.metrics (MetricMessage.ofMetrics metrics))
    (.metrics [])

/-- What the reply to one metric says. -/
def receiveSingle : Except RpcStatus (Option MetricMessage) → Except Fault Metric
  | .error status => .error (status.fault "SetMetric")
  | .ok none => .error (.internal "gRPC 응답에 메트릭 없음")
  | .ok (some message) => message.toMetric

/-- What the reply to a batch says. -/
def receiveBatch : Except RpcStatus (List MetricMessage) → Except Fault (List Metric)
  | .error status => .error (status.fault "SetMetrics")
  | .ok messages => MetricMessage.toMetrics messages

variable {m : Type → Type} [Monad m]

/-- Makes a call unless the sender is closed or the request cannot be made. -/
def send {α β : Type} (s : RpcSender) (seed : m EnvelopeSeed)
    (request : EnvelopeSeed → Except Fault Rpc.Request)
    (call : Rpc.Request → m (Except RpcStatus β))
    (receive : Except RpcStatus β → Except Fault α) : m (Except Fault α) := do
  if s.isClosed then pure (.error .closed)
  else
    match request (← seed) with
    | .error f => pure (.error f)
    | .ok r => do pure (receive (← call r))

def sender (s : RpcSender) (channel : RpcChannel m) (seed : m EnvelopeSeed) : MetricSender m :=
  { single := fun metric =>
      s.send seed (s.singleRequest · metric) channel.setMetric receiveSingle
    batch := fun metrics =>
      s.send seed (s.batchRequest · metrics) channel.setMetrics receiveBatch }

def close (s : RpcSender) : RpcSender := { s with isClosed := true }

end RpcSender

end Telemetry
