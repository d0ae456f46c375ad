import Telemetry.Http.Message
import Telemetry.Text.Percent

/-!
# Routes

What the path of a request asks for. The parts of a path stand for themselves until
they are decoded; only the last part of a path has to be there. A resource knows one
method, and what can be got can be asked for without its body.
-/

namespace Telemetry.Http

inductive Route
  | index
  | ping
  /-- one metric, in the body -/
  | update
  /-- a batch, in the body -/
  | updates
  /-- one metric, in the path -/
  | updatePath (kind name value : String)
  /-- the metric that the body asks for -/
  | find
  | findPath (kind name : String)
  | unknown
deriving DecidableEq, Repr

namespace Route

/-- The path of a target, without its query. -/
def pathOf (target : String) : String :=
  String.ofList (target.toList.takeWhile fun c => c ≠ '?' && c ≠ '#')

def ofPath (path : String) : Route :=
  match Text.split '/' path with
  | ["", ""] => .index
  | ["", "ping"] => .ping
  | ["", "update", ""] => .update
  | ["", "updates", ""] => .updates
  | ["", "update", kind, name, value] =>
    if value.isEmpty then .unknown else .updatePath kind name value
  | ["", "value", ""] => .find
  | ["", "value", kind, name] => if name.isEmpty then .unknown else .findPath kind name
  | _ => .unknown

/-- Whether a resource is there to be got, or else to be posted to. -/
def isGot : Route → Bool
  | .index | .ping | .findPath _ _ => true
  | _ => false

/-- The methods of a resource, as a header lists them. -/
def methods (r : Route) : String := if r.isGot then "GET,HEAD" else "POST"

def allows (r : Route) (method : String) : Bool :=
  if r.isGot then method = "GET" || method = "HEAD" else method = "POST"

end Route

/-- The texts of named parts of a path, or the name of the first that is none. -/
def decodeParts : List (String × String) → Except String (List String)
  | [] => .ok []
  | (name, part) :: rest =>
    match Bytes.toText? (Text.percentDecode (Bytes.ofText part)) with
    | none => .error name
    | some text => (decodeParts rest).map (text :: ·)

end Telemetry.Http
