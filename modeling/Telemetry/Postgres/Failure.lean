import Telemetry.Fault

/-!
# Failures of a database

Why a statement did not succeed. A failure is worth another try if the database could
not be reached; what a database itself reports is judged by its code.
-/

namespace Telemetry.Postgres

inductive Failure
  /-- the connection broke -/
  | connection
  | tls (text : String)
  | poolTimedOut
  | poolClosed
  | workerCrashed
  | rowNotFound
  | columnNotFound (name : String)
  | protocol (text : String)
  /-- a transaction did not begin as it should -/
  | beginFailed
  /-- the database's own complaint -/
  | reported (code : Option String) (text : String)
deriving DecidableEq, Repr

/-- Whether a code of the database means that it cannot be reached for now. -/
def isTransientCode (code : String) : Bool :=
  code.startsWith "08" || code = "57P01" || code = "57P02" || code = "57P03" || code = "53300"

namespace Failure

def message : Failure → String
  | .connection => "error communicating with database"
  | .tls text => "error occurred while attempting to establish a TLS connection: " ++ text
  | .poolTimedOut => "pool timed out while waiting for an open connection"
  | .poolClosed => "attempted to acquire a connection on a closed pool"
  | .workerCrashed => "attempted to communicate with a crashed background worker"
  | .rowNotFound => "no rows returned by a query that expected to return at least one row"
  | .columnNotFound name => "no column found for name: " ++ name
  | .protocol text => "encountered unexpected or invalid data: " ++ text
  | .beginFailed =>
    "got unexpected connection status after attempting to begin transaction"
  | .reported _ text => "error returned from database: " ++ text

def isTransient : Failure → Bool
  | .connection | .tls _ | .poolTimedOut | .poolClosed | .workerCrashed => true
  | .reported (some code) _ => isTransientCode code
  | _ => false

/-- The fault of an operation that failed so. -/
def fault (operation : String) (f : Failure) : Fault :=
  let text := operation ++ ": " ++ f.message
  if f.isTransient then .storageUnavailable text else .storage text

end Failure

end Telemetry.Postgres
