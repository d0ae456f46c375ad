import Telemetry.Json.Record
import Telemetry.Json.Writer
import Telemetry.Metric

/-!
# Metrics as JSON documents

A metric is written as an object of its fields `id`, `type`, `value` and `delta`, in
this order and without those it does not have. It is read as a record: the first two
fields are needed, the other two may be missing or `null`.
-/

namespace Telemetry.Metric

/-- The JSON document of a metric. -/
def document (m : Metric) : String :=
  Json.object <|
    [("id", Json.quote m.name), ("type", Json.quote m.kind.text)] ++
    (match m.value with | some v => [("value", v.document)] | none => []) ++
    (match m.delta with | some d => [("delta", int64Text d)] | none => [])

/-- The JSON document of a list of metrics. -/
def listDocument (ms : List Metric) : String := Json.array (ms.map document)

/-- The UTF-8 bytes of `document`. -/
def documentBytes (m : Metric) : Bytes := Bytes.ofText m.document

def listDocumentBytes (ms : List Metric) : Bytes := Bytes.ofText (listDocument ms)

/-- Reads one of the words for a kind. -/
def kindReader : Json.Reader Kind := Json.Reader.choice Kind.words Kind.ofText?

def fields : List (Json.Field Metric) :=
  [ ⟨"id", true, fun m => do pure { m with name := ← Json.Reader.text "a string" }⟩,
    ⟨"type", true, fun m => do pure { m with kind := ← kindReader }⟩,
    ⟨"value", false, fun m => do
      pure { m with value := ← Json.Reader.nullable Json.Reader.real }⟩,
    ⟨"delta", false, fun m => do
      pure { m with delta := ← Json.Reader.nullable Json.Reader.int64 }⟩ ]

def reader : Json.Reader Metric := Json.Record.reader "Metric" fields ⟨"", .gauge, none, none⟩

/-- Reads the document of one metric. -/
def parse (document : Bytes) : Except Fault Metric :=
  (Json.Reader.parse reader document).mapError .serialization

/-- Reads the document of a list of metrics. -/
def parseList (document : Bytes) : Except Fault (List Metric) :=
  (Json.Reader.parse (Json.Reader.list reader) document).mapError .serialization

end Telemetry.Metric
