import Telemetry.Gzip
import Telemetry.Http.Message
import Telemetry.Http.StatusText
import Telemetry.Metric.Document
import Telemetry.Network.Endpoint
import Telemetry.Network.Locator
import Telemetry.Security.Sealer
import Telemetry.Sender.Basic
import Telemetry.Text.Lossy

/-!
# Sending over HTTP

A payload is a JSON document. It is signed as it is, put into an envelope if there is a
public key, compressed, and posted. A reply counts as a success by its status alone; its
body is decompressed, checked if it is signed and if there is a key to check it with,
and read as the kind of document that was sent.
-/

namespace Telemetry

structure HttpSender where
  /-- what all locators begin with -/
  baseUrl : String
  sealer : Sealer
  /-- the own address, which is told to the server -/
  address : Option IpAddress
  isClosed : Bool

namespace HttpSender

/-- A sender that neither signs nor encrypts. -/
def ofAddress (address : String) : HttpSender :=
  ⟨Endpoint.baseUrl address, ⟨none, none⟩, none, false⟩

/-- Where one metric is posted to. -/
def singlePath : String := "/update/"

/-- Where a batch is posted to. -/
def batchPath : String := "/updates/"

def locator (s : HttpSender) (path : String) : String := s.baseUrl ++ path

/-- The headers of a request with a parcel. -/
def headers (s : HttpSender) (parcel : Parcel) : List (String × String) :=
  [("Content-Type", "application/json"), ("Content-Encoding", Gzip.encoding)] ++
    (parcel.signature.map fun signature => (Http.signatureHeader, signature)).toList ++
    (if parcel.isEnvelope then [(Http.envelopeHeader, "true")] else []) ++
    (s.address.map fun ip => (Http.addressHeader, ip.text)).toList

/-- The request that posts a document. -/
def request (s : HttpSender) (seed : EnvelopeSeed) (path : String) (document : Bytes) :
    Except Fault Http.Request :=
  (s.sealer.pack seed document).map fun parcel =>
    { method := "POST"
      target := Locator.target (s.locator path)
      headers := (s.headers parcel).map fun h => (h.1, Bytes.ofText h.2)
      body := Gzip.compress parcel.body }

/-- The body of a reply without its compression. -/
def plainBody (reply : Http.Reply) : Except Fault Bytes :=
  if (reply.header? "Content-Encoding").any (· = Gzip.encoding) && !reply.body.isEmpty then
    match Gzip.gunzip reply.body with
    | some body => .ok body
    | none => .error (.network "응답 본문 읽기 실패")
  else .ok reply.body

/-- The fault of a reply that is no success. -/
def refusal (status : Nat) (text : String) : Fault :=
  match status with
  | 400 => .validation (.reported "request" text)
  | 401 => .signature (.reported text)
  | 403 => .forbidden text
  | 404 => .metricNotFound text
  | 500 | 502 | 503 | 504 =>
    .serviceUnavailable ("서버 에러 (" ++ Http.statusText status ++ "): " ++ text)
  | _ => .network ("API 에러 (" ++ Http.statusText status ++ "): " ++ text)

/-- What a reply says. -/
def receive {α : Type} (s : HttpSender) (read : Bytes → Except Fault α) (reply : Http.Reply) :
    Except Fault α := do
  if reply.status < 200 || 300 ≤ reply.status then
    throw (refusal reply.status (Text.lossy ((plainBody reply).toOption.getD [])))
  let body ← plainBody reply
  match s.sealer.signer, reply.header? Http.signatureHeader with
  | some signer, some signature => signer.verify body signature
  | _, _ => pure ()
  read body

variable {m : Type → Type} [Monad m]

/-- How a request is exchanged for a reply; nothing if that fails. -/
abbrev Exchange (m : Type → Type) := Http.Request → m (Option Http.Reply)

/-- Posts a document and reads the reply. -/
def post {α : Type} (s : HttpSender) (exchange : Exchange m) (seed : m EnvelopeSeed)
    (path : String) (document : Bytes) (read : Bytes → Except Fault α) : m (Except Fault α) := do
  if s.isClosed then pure (.error .closed)
  else
    match s.request (← seed) path document with
    | .error f => pure (.error f)
    | .ok request =>
      match ← exchange request with
      | none => pure (.error (.network ("요청 실패: " ++ s.locator path)))
      | some reply => pure (s.receive read reply)

def sender (s : HttpSender) (exchange : Exchange m) (seed : m EnvelopeSeed) : MetricSender m :=
  { single := fun metric => s.post exchange seed singlePath metric.documentBytes Metric.parse
    batch := fun metrics =>
      s.post exchange seed batchPath (Metric.listDocumentBytes metrics) Metric.parseList }

def close (s : HttpSender) : HttpSender := { s with isClosed := true }

end HttpSender

end Telemetry
