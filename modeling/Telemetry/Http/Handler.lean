import Telemetry.Http.IndexPage
import Telemetry.Http.Problem
import Telemetry.Http.Route
import Telemetry.Metric.Document
import Telemetry.Server.Ingest

/-!
# Answering requests

What each route does with a request whose body is plain: it reads what it needs, asks
the store, and answers. Nothing is written before everything is read and checked.
-/

namespace Telemetry.Http

variable {m : Type → Type} [Monad m]

/-- The longest body that a route takes. -/
def maxRouteBody : Nat := 2 * 1024 * 1024

/-- A question for the value of a metric. -/
structure ValueQuery where
  name : String
  kind : Kind

namespace ValueQuery

def fields : List (Json.Field ValueQuery) :=
  [ ⟨"id", true, fun q => do pure { q with name := ← Json.Reader.text "a string" }⟩,
    ⟨"type", true, fun q => do pure { q with kind := ← Metric.kindReader }⟩ ]

def reader : Json.Reader ValueQuery := Json.Record.reader "ValueQuery" fields ⟨"", .gauge⟩

end ValueQuery

/-- The response to a fault. -/
def Response.ofProblem (p : Problem) : Response := .json p.status p.document

def Response.ofFault (f : Fault) : Response := .ofProblem (Problem.ofFault f)

/-- The response to a result. -/
def answerWith {α : Type} (f : α → Response) : Except Fault α → Response
  | .ok a => f a
  | .error e => .ofFault e

/-- Reads a body as JSON and goes on with what it says. -/
def withDocument {α : Type} (reader : Json.Reader α) (body : Bytes) (go : α → m Response) :
    m Response :=
  if maxRouteBody < body.length then
    pure (.plain 413 "Failed to buffer the request body: length limit exceeded")
  else
    match Json.Reader.parse reader body with
    | .error d => pure (.ofFault (.serialization d))
    | .ok a => go a

/-- Decodes the parts of a path and goes on with their texts. -/
def withParts (parts : List (String × String)) (go : List String → m Response) : m Response :=
  match decodeParts parts with
  | .error name =>
    pure (.plain 400 ("Invalid URL: Invalid UTF-8 in " ++ "\x60" ++ name ++ "\x60"))
  | .ok texts => go texts

/-- Merges the metric that the parts of a path spell out. -/
def updateFromPath (store : Store m) (kind name value : String) : m Response :=
  if name.isEmpty then pure (.ofProblem ⟨.notFound, "메트릭 이름 없음"⟩)
  else
    match Metric.ofTexts kind name value with
    | .error f => pure (.ofFault f)
    | .ok metric => do
      pure (answerWith (fun x => .plain 200 x.valueText) (← Ingest.update store metric))

def valueFromPath (store : Store m) (kind name : String) : m Response :=
  match Kind.ofText? kind with
  | none => pure (.ofFault (.validation (.unknownKind kind)))
  | some kind => do
    pure (answerWith (fun x => .plain 200 x.valueText) (← Ingest.get store kind name))

/-- The answer of a route to a plain body. -/
def Route.handle (store : Store m) (route : Route) (body : Bytes) : m Response :=
  match route with
  | .index => do
    pure (answerWith (fun ms => .html (IndexPage.page ms)) (← store .list))
  | .ping => do pure (answerWith (fun _ => .plain 200 "OK") (← store .ping))
  | .update =>
    withDocument Metric.reader body fun metric => do
      pure (answerWith (fun x => .json 200 x.document) (← Ingest.update store metric))
  | .updates =>
    withDocument (Json.Reader.list Metric.reader) body fun batch => do
      pure (answerWith (fun ms => .json 200 (Metric.listDocument ms))
        (← Ingest.updateMany store batch))
  | .updatePath kind name value =>
    withParts [("mtype", kind), ("name", name), ("value", value)] fun
      | [kind, name, value] => updateFromPath store kind name value
      | _ => pure (.bare 404)
  | .find =>
    withDocument ValueQuery.reader body fun q => do
      pure (answerWith (fun x => .json 200 x.document) (← Ingest.get store q.kind q.name))
  | .findPath kind name =>
    withParts [("mtype", kind), ("name", name)] fun
      | [kind, name] => valueFromPath store kind name
      | _ => pure (.bare 404)
  | .unknown => pure (.bare 404)

end Telemetry.Http
