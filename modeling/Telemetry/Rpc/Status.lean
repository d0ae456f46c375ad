import Telemetry.Fault

/-!
# Status of a remote call

A call that fails answers a code and a message. The server derives both from its fault
(`RpcStatus.ofFault`), and the client derives a fault of its own from them
(`RpcStatus.fault`).
-/

namespace Telemetry

inductive RpcCode
  | ok
  | cancelled
  | unknown
  | invalidArgument
  | deadlineExceeded
  | notFound
  | alreadyExists
  | permissionDenied
  | resourceExhausted
  | failedPrecondition
  | aborted
  | outOfRange
  | unimplemented
  | internal
  | unavailable
  | dataLoss
  | unauthenticated
deriving DecidableEq, Repr

namespace RpcCode

/-- The codes by their numbers. -/
def all : List RpcCode :=
  [.ok, .cancelled, .unknown, .invalidArgument, .deadlineExceeded, .notFound, .alreadyExists,
    .permissionDenied, .resourceExhausted, .failedPrecondition, .aborted, .outOfRange,
    .unimplemented, .internal, .unavailable, .dataLoss, .unauthenticated]

/-- The code of a number; unknown for a number that has none. -/
def ofNumber (n : Int) : RpcCode :=
  if n < 0 then .unknown else (all[n.toNat]?).getD .unknown

/-- The name of a code. -/
def name : RpcCode → String
  | .ok => "Ok"
  | .cancelled => "Cancelled"
  | .unknown => "Unknown"
  | .invalidArgument => "InvalidArgument"
  | .deadlineExceeded => "DeadlineExceeded"
  | .notFound => "NotFound"
  | .alreadyExists => "AlreadyExists"
  | .permissionDenied => "PermissionDenied"
  | .resourceExhausted => "ResourceExhausted"
  | .failedPrecondition => "FailedPrecondition"
  | .aborted => "Aborted"
  | .outOfRange => "OutOfRange"
  | .unimplemented => "Unimplemented"
  | .internal => "Internal"
  | .unavailable => "Unavailable"
  | .dataLoss => "DataLoss"
  | .unauthenticated => "Unauthenticated"

def description : RpcCode → String
  | .ok => "The operation completed successfully"
  | .cancelled => "The operation was cancelled"
  | .unknown => "Unknown error"
  | .invalidArgument => "Client specified an invalid argument"
  | .deadlineExceeded => "Deadline expired before operation could complete"
  | .notFound => "Some requested entity was not found"
  | .alreadyExists => "Some entity that we attempted to create already exists"
  | .permissionDenied =>
    "The caller does not have permission to execute the specified operation"
  | .resourceExhausted => "Some resource has been exhausted"
  | .failedPrecondition =>
    "The system is not in a state required for the operation's execution"
  | .aborted => "The operation was aborted"
  | .outOfRange => "Operation was attempted past the valid range"
  | .unimplemented => "Operation is not implemented or not supported"
  | .internal => "Internal error"
  | .unavailable => "The service is currently unavailable"
  | .dataLoss => "Unrecoverable data loss or corruption"
  | .unauthenticated => "The request does not have valid authentication credentials"

end RpcCode

/-- What a failed call answers. -/
structure RpcStatus where
  code : RpcCode
  message : String
deriving DecidableEq, Repr

namespace RpcStatus

/-- What a server answers for a fault. Why a signature was refused is not told. -/
def ofFault (f : Fault) : RpcStatus :=
  match f with
  | .signature _ => ⟨.unauthenticated, "서명 검증 실패"⟩
  | .decrypt | .validation _ | .serialization _ => ⟨.invalidArgument, f.message⟩
  | .forbidden _ => ⟨.permissionDenied, f.message⟩
  | .notFound _ _ => ⟨.notFound, f.message⟩
  | .storageUnavailable _ | .serviceUnavailable _ => ⟨.unavailable, f.message⟩
  | _ => ⟨.internal, f.message⟩

/-- What a client makes of the answer to a call. -/
def fault (call : String) (s : RpcStatus) : Fault :=
  let detail := call ++ ": " ++ s.message
  match s.code with
  | .unauthenticated => .signature (.reported detail)
  | .permissionDenied => .forbidden detail
  | .invalidArgument => .validation (.reported call s.message)
  | .notFound => .metricNotFound s.message
  | .unavailable => .serviceUnavailable detail
  | .deadlineExceeded => .network (detail ++ " (타임아웃)")
  | .cancelled => .cancelled
  | code => .network (detail ++ " (" ++ code.description ++ ")")

end RpcStatus

end Telemetry
