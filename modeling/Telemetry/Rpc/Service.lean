import Telemetry.Metric.Document
import Telemetry.Rpc.Message
import Telemetry.Rpc.Status
import Telemetry.Security.Guard
import Telemetry.Server.Ingest

/-!
# The service for remote calls

The service takes one metric or a batch. A request holds the metrics as messages, or an
envelope with the JSON document of the same; its metadata say which, where the caller
stands and what the signature is. The signature is that of the JSON document, which is
written anew if the metrics came as messages.

How long a message may be is a matter of the transport below: what it turns away as too long, it
answers itself, and no such message is a `Request`.
-/

namespace Telemetry.Rpc

/-- The metadata that carry a signature. -/
def signatureKey : String := "hashsha256"

/-- The metadata that mark an envelope. -/
def envelopeKey : String := "encrypted"

/-- The metadata with the address that an agent states. -/
def addressKey : String := "x-real-ip"

inductive Payload
  | metric (message : Option MetricMessage)
  | metrics (messages : List MetricMessage)

structure Request where
  metadata : List (String × Bytes)
  payload : Payload
  envelope : Bytes

inductive Reply
  | metric (message : MetricMessage)
  | metrics (messages : List MetricMessage)
deriving DecidableEq

/-- Whether a byte may stand in metadata that are read as a text. -/
def isTextByte (b : UInt8) : Bool := b = 9 || (0x20 ≤ b && b < 0x7f)

/-- The first value of a key, as a text. -/
def Request.text? (r : Request) (key : String) : Option String :=
  match r.metadata.find? fun e => Text.lowerAscii e.1 = key with
  | some (_, value) => if value.all isTextByte then Bytes.toText? value else none
  | none => none

/-- What a request carries, once its peer, its envelope and its signature are found to
be in order. -/
def Request.open {α : Type} (r : Request) (g : Guard) (reader : Json.Reader α)
    (document : α → Bytes) (plain : Except Fault α) : Except Fault α := do
  g.checkPeer (r.text? addressKey)
  let isEnvelope := (r.text? envelopeKey).any fun v => Text.lowerAscii v = "true"
  let (content, signed) ←
    if isEnvelope then do
      let signed ← g.openBody r.envelope true
      let content ← (Json.Reader.parse reader signed).mapError .serialization
      pure (content, signed)
    else do
      let content ← plain
      pure (content, document content)
  g.verify signed (r.text? signatureKey)
  pure content

/-- One metric from its message. -/
def metricOf : Option MetricMessage → Except Fault Metric
  | none => .error (.validation .metricMissing)
  | some message => message.toMetric

/-- The status of a result that is not one. -/
def withStatus {α : Type} (f : α → Reply) : Except Fault α → Except RpcStatus Reply
  | .ok a => .ok (f a)
  | .error e => .error (RpcStatus.ofFault e)

/-- The answer to a request. -/
def answer {m : Type → Type} [Monad m] (g : Guard) (store : Store m) (r : Request) :
    m (Except RpcStatus Reply) :=
  match r.payload with
  | .metric message =>
    match r.open g Metric.reader Metric.documentBytes (metricOf message) with
    | .error f => pure (.error (RpcStatus.ofFault f))
    | .ok metric => do
      pure (withStatus (fun x => .metric (MetricMessage.ofMetric x))
        (← Ingest.update store metric))
  | .metrics messages =>
    match r.open g (Json.Reader.list Metric.reader) Metric.listDocumentBytes
        (MetricMessage.toMetrics messages) with
    | .error f => pure (.error (RpcStatus.ofFault f))
    | .ok batch => do
      pure (withStatus (fun xs => .metrics (MetricMessage.ofMetrics xs))
        (← Ingest.updateMany store batch))

end Telemetry.Rpc
