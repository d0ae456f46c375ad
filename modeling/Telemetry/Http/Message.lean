import Telemetry.Bytes
import Telemetry.Text.Blank

/-!
# Requests and responses

A request has a method, a target, headers and a body. Of a response the library sets
only a few headers, and those are its fields; a `Reply` is a response as it arrives,
with whatever headers it has. Header names are compared without regard to case, and
only the first header of a name counts; a value that is not plain ASCII counts as none.
-/

namespace Telemetry.Http

/-- The header that carries a signature. -/
def signatureHeader : String := "HashSHA256"

/-- The header that marks an envelope. -/
def envelopeHeader : String := "X-Encrypted"

/-- The header with the address that an agent states. -/
def addressHeader : String := "X-Real-IP"

structure Request where
  method : String
  /-- path and query as they are sent -/
  target : String
  headers : List (String × Bytes)
  body : Bytes

/-- Whether a byte may stand in a header that is read as a text. -/
def isHeaderByte (b : UInt8) : Bool := b = 9 || (0x20 ≤ b && b < 0x7f)

/-- The value of a header as a text. -/
def headerText? (headers : List (String × Bytes)) (name : String) : Option String :=
  match headers.find? fun h => Text.lowerAscii h.1 = Text.lowerAscii name with
  | some (_, value) => if value.all isHeaderByte then Bytes.toText? value else none
  | none => none

def Request.header? (r : Request) (name : String) : Option String := headerText? r.headers name

/-- Whether a header has a value, in any case. -/
def Request.hasHeader (r : Request) (name value : String) : Bool :=
  (r.header? name).any fun v => Text.lowerAscii v = value

structure Response where
  status : Nat
  contentType : Option String
  /-- the methods that a resource knows, if the request's is none of them -/
  allow : Option String
  encoding : Option String
  signature : Option String
  body : Bytes
deriving DecidableEq

namespace Response

/-- A response with nothing but a status. -/
def bare (status : Nat) : Response := ⟨status, none, none, none, none, []⟩

def ofText (status : Nat) (contentType text : String) : Response :=
  { bare status with contentType := some contentType, body := Bytes.ofText text }

def json (status : Nat) (document : String) : Response :=
  ofText status "application/json" document

def plain (status : Nat) (text : String) : Response :=
  ofText status "text/plain; charset=utf-8" text

def html (page : String) : Response := ofText 200 "text/html; charset=utf-8" page

/-- The headers of a response. -/
def headers (r : Response) : List (String × Bytes) :=
  [ ("Content-Type", r.contentType), ("Allow", r.allow), ("Content-Encoding", r.encoding),
    (signatureHeader, r.signature) ].filterMap fun (name, value) =>
      value.map fun v => (name, Bytes.ofText v)

end Response

/-- A response as a client receives it. -/
structure Reply where
  status : Nat
  headers : List (String × Bytes)
  body : Bytes

namespace Reply

def ofResponse (r : Response) : Reply := ⟨r.status, r.headers, r.body⟩

def header? (r : Reply) (name : String) : Option String := headerText? r.headers name

end Reply

end Telemetry.Http
