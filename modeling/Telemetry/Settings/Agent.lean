import Telemetry.Fault
import Telemetry.Json.Record
import Telemetry.Json.Writer
import Telemetry.Text.Blank

/-!
# Settings of an agent

Where an agent sends, how, and how often. A document may leave out any field; the
rules of `validate` are checked apart from reading.
-/

namespace Telemetry

/-- How an agent talks to its server. -/
inductive Transport
  | http
  | grpc
deriving DecidableEq, Inhabited

namespace Transport

def text : Transport → String
  | .http => "http"
  | .grpc => "grpc"

def words : List String := ["http", "grpc"]

def ofText? (s : String) : Option Transport :=
  if s = "http" then some .http else if s = "grpc" then some .grpc else none

/-- Reads a word in any case. -/
def parse (s : String) : Except Fault Transport :=
  let word := Text.lowerAscii s
  match ofText? word with
  | some t => .ok t
  | none => .error (.config (.unknownTransport word))

end Transport

structure AgentSettings where
  address : String
  transport : Transport
  /-- whether a report is one request or one per metric -/
  batch : Bool
  pollIntervalSecs : Nat
  reportIntervalSecs : Nat
  /-- how many requests may be under way at once -/
  rateLimit : Nat
  key : Option String
  cryptoKey : Option String
  requestTimeoutSecs : Nat

namespace AgentSettings

def standard : AgentSettings :=
  { address := "localhost:8080"
    transport := .http
    batch := true
    pollIntervalSecs := 2
    reportIntervalSecs := 10
    rateLimit := 1
    key := none
    cryptoKey := none
    requestTimeoutSecs := 5 }

def fields : List (Json.Field AgentSettings) :=
  [ ⟨"address", false, fun s => do pure { s with address := ← Json.Reader.text "a string" }⟩,
    ⟨"transport", false, fun s => do
      pure { s with transport := ← Json.Reader.choice Transport.words Transport.ofText? }⟩,
    ⟨"batch", false, fun s => do pure { s with batch := ← Json.Reader.bool }⟩,
    ⟨"poll_interval_secs", false, fun s => do
      pure { s with pollIntervalSecs := ← Json.Reader.natural "u64" 64 }⟩,
    ⟨"report_interval_secs", false, fun s => do
      pure { s with reportIntervalSecs := ← Json.Reader.natural "u64" 64 }⟩,
    ⟨"rate_limit", false, fun s => do
      pure { s with rateLimit := ← Json.Reader.natural "usize" 64 }⟩,
    ⟨"key", false, fun s => do
      pure { s with key := ← Json.Reader.nullable (Json.Reader.text "a string") }⟩,
    ⟨"crypto_key", false, fun s => do
      pure { s with cryptoKey := ← Json.Reader.nullable (Json.Reader.text "path string") }⟩,
    ⟨"request_timeout_secs", false, fun s => do
      pure { s with requestTimeoutSecs := ← Json.Reader.natural "u64" 64 }⟩ ]

def reader : Json.Reader AgentSettings := Json.Record.reader "AgentConfig" fields standard

def document (s : AgentSettings) : String :=
  Json.object
    [ ("address", Json.quote s.address),
      ("transport", Json.quote s.transport.text),
      ("batch", Json.bool s.batch),
      ("poll_interval_secs", natText s.pollIntervalSecs),
      ("report_interval_secs", natText s.reportIntervalSecs),
      ("rate_limit", natText s.rateLimit),
      ("key", Json.orNull (s.key.map Json.quote)),
      ("crypto_key", Json.orNull (s.cryptoKey.map Json.quote)),
      ("request_timeout_secs", natText s.requestTimeoutSecs) ]

/-- The first setting with which an agent cannot run. -/
def fault? (s : AgentSettings) : Option SettingFault :=
  if (Text.trim s.address).isEmpty then some .emptyServerAddress
  else if s.pollIntervalSecs = 0 then some .zeroPollInterval
  else if s.reportIntervalSecs = 0 then some .zeroReportInterval
  else if s.rateLimit = 0 then some .noWorkers
  else if s.requestTimeoutSecs = 0 then some .zeroTimeout
  else none

def validate (s : AgentSettings) : Except Fault Unit :=
  match s.fault? with
  | none => .ok ()
  | some f => .error (.config f)

end AgentSettings

end Telemetry
