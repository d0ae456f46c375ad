import Telemetry.Gzip
import Telemetry.Http.Handler
import Telemetry.Security.Guard

/-!
# What surrounds the routes

Every request, whatever it asks for, passes three layers before it reaches its route:
the peer's address is checked (`admit`), the response will be signed and compressed
(`wrap`), and the body is decompressed, taken out of its envelope and checked against
its signature (`openRequest`). An empty body is let through as it is.
-/

namespace Telemetry.Http

variable {m : Type → Type} [Monad m]

/-- The longest body that a request may have, as it is sent and decompressed. -/
def maxBody : Nat := 8 * 1024 * 1024

/-- Whether a list of encodings names the one that responses can be sent in. Whatever
begins with its name counts, whatever weight it has. -/
def acceptsGzip (encodings : String) : Bool :=
  (Text.split ',' encodings).any fun e => (Text.trim e).startsWith Gzip.encoding

/-- A body without its compression and its envelope. -/
def openBody (g : Guard) (body : Bytes) (isCompressed isEnvelope : Bool) :
    Except Fault Bytes := do
  let body ← if isCompressed then Gzip.decompress maxBody body else pure body
  g.openBody body isEnvelope

/-- The plain body of a request. The signature is asked for where something is posted. -/
def Request.plainBody (g : Guard) (r : Request) : Except Fault Bytes := do
  let plain ← openBody g r.body (r.hasHeader "Content-Encoding" Gzip.encoding)
    (r.hasHeader envelopeHeader "true")
  if r.method = "POST" then g.verify plain (r.header? signatureHeader)
  pure plain

/-- Opens a request and goes on with its plain body. -/
def openRequest (g : Guard) (r : Request) (go : Bytes → m Response) : m Response :=
  if maxBody < r.body.length then
    pure (.ofProblem ⟨.badRequest, "요청 본문 읽기 실패: length limit exceeded"⟩)
  else if r.body.isEmpty then go []
  else
    match r.plainBody g with
    | .error f => pure (.ofFault f)
    | .ok plain => go plain

/-- Signs and compresses a response. One without a body stays as it is. -/
def wrap (g : Guard) (acceptsCompressed : Bool) (response : Response) : Response :=
  if response.body.isEmpty then response
  else
    let signed := { response with signature := g.sign response.body }
    if acceptsCompressed then
      { signed with encoding := some Gzip.encoding, body := Gzip.compress response.body }
    else signed

/-- The response to a request that comes from an admitted peer. -/
def respondAdmitted (g : Guard) (store : Store m) (r : Request) (route : Route) :
    m Response := do
  let response ← openRequest g r fun body =>
    if route = .unknown then pure (.bare 404)
    else if route.allows r.method then route.handle store body
    else pure (.bare 405)
  pure (wrap g ((r.header? "Accept-Encoding").any acceptsGzip) response)

/-- The last touch to a response: the methods of a resource if the request's is none of
them, and no body where none was asked for. -/
def finish (route : Route) (method : String) (response : Response) : Response :=
  let response :=
    if route ≠ .unknown && !route.allows method then
      { response with allow := some route.methods }
    else response
  if method = "HEAD" then { response with body := [] } else response

/-- The response to a request. -/
def respond (g : Guard) (store : Store m) (r : Request) : m Response := do
  let route := Route.ofPath (Route.pathOf r.target)
  match g.checkPeer (r.header? addressHeader) with
  | .error f => pure (finish route r.method (.ofFault f))
  | .ok () => do
    pure (finish route r.method (← respondAdmitted g store r route))

end Telemetry.Http
