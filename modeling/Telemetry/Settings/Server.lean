import Telemetry.Fault
import Telemetry.Network.Subnet
import Telemetry.Settings.Retry
import Telemetry.Text.Blank

/-!
# Settings of a server

Where a server listens, where it keeps metrics and what it asks of requests. A
document may leave out any field; the rules of `validate` are checked apart from
reading.
-/

namespace Telemetry

structure ServerSettings where
  address : String
  /-- without one there is no second transport -/
  grpcAddress : Option String
  /-- zero means a dump with every write -/
  storeIntervalSecs : Nat
  fileStoragePath : Option String
  restore : Bool
  databaseDsn : Option String
  key : Option String
  cryptoKey : Option String
  trustedSubnet : Option Subnet
  dbCheckIntervalSecs : Nat
  storageRetry : RetrySettings

namespace ServerSettings

def standard : ServerSettings :=
  { address := "localhost:8080"
    grpcAddress := none
    storeIntervalSecs := 300
    fileStoragePath := none
    restore := true
    databaseDsn := none
    key := none
    cryptoKey := none
    trustedSubnet := none
    dbCheckIntervalSecs := 10
    storageRetry := RetrySettings.standard }

def fields : List (Json.Field ServerSettings) :=
  [ ⟨"address", false, fun s => do pure { s with address := ← Json.Reader.text "a string" }⟩,
    ⟨"grpc_address", false, fun s => do
      pure { s with grpcAddress := ← Json.Reader.nullable (Json.Reader.text "a string") }⟩,
    ⟨"store_interval_secs", false, fun s => do
      pure { s with storeIntervalSecs := ← Json.Reader.natural "u64" 64 }⟩,
    ⟨"file_storage_path", false, fun s => do
      pure { s with fileStoragePath :=
        ← Json.Reader.nullable (Json.Reader.text "path string") }⟩,
    ⟨"restore", false, fun s => do pure { s with restore := ← Json.Reader.bool }⟩,
    ⟨"database_dsn", false, fun s => do
      pure { s with databaseDsn := ← Json.Reader.nullable (Json.Reader.text "a string") }⟩,
    ⟨"key", false, fun s => do
      pure { s with key := ← Json.Reader.nullable (Json.Reader.text "a string") }⟩,
    ⟨"crypto_key", false, fun s => do
      pure { s with cryptoKey := ← Json.Reader.nullable (Json.Reader.text "path string") }⟩,
    ⟨"trusted_subnet", false, fun s => do
      pure { s with trustedSubnet := ← Json.Reader.nullable Subnet.reader }⟩,
    ⟨"db_check_interval_secs", false, fun s => do
      pure { s with dbCheckIntervalSecs := ← Json.Reader.natural "u64" 64 }⟩,
    ⟨"storage_retry", false, fun s => do
      pure { s with storageRetry := ← RetrySettings.reader }⟩ ]

def reader : Json.Reader ServerSettings := Json.Record.reader "ServerConfig" fields standard

def document (s : ServerSettings) : String :=
  let textOrNull (t : Option String) := Json.orNull (t.map Json.quote)
  Json.object
    [ ("address", Json.quote s.address),
      ("grpc_address", textOrNull s.grpcAddress),
      ("store_interval_secs", natText s.storeIntervalSecs),
      ("file_storage_path", textOrNull s.fileStoragePath),
      ("restore", Json.bool s.restore),
      ("database_dsn", textOrNull s.databaseDsn),
      ("key", textOrNull s.key),
      ("crypto_key", textOrNull s.cryptoKey),
      ("trusted_subnet", textOrNull (s.trustedSubnet.map Subnet.text)),
      ("db_check_interval_secs", natText s.dbCheckIntervalSecs),
      ("storage_retry", s.storageRetry.document) ]

/-- The first setting with which a server cannot run. -/
def fault? (s : ServerSettings) : Option SettingFault :=
  let multiplier := s.storageRetry.multiplier
  if (Text.trim s.address).isEmpty then some .emptyListenAddress
  else if s.dbCheckIntervalSecs = 0 then some .zeroCheckInterval
  else if !(multiplier.isFinite && (Binary64.ofNat 1).le multiplier) then
    some (.smallMultiplier multiplier)
  else if s.storageRetry.maxDelayMs < s.storageRetry.initialDelayMs then some .shortMaxDelay
  else if s.databaseDsn.any fun dsn => (Text.trim dsn).isEmpty then some .emptyDsn
  else none

def validate (s : ServerSettings) : Except Fault Unit :=
  match s.fault? with
  | none => .ok ()
  | some f => .error (.config f)

end ServerSettings

end Telemetry
