import Telemetry.CommandLine.Option
import Telemetry.Settings.Server

/-!
# The command of a server

Options and variables that are given go before the settings in a file.
-/

namespace Telemetry

structure ServerCommand where
  /-- the file with the settings -/
  config : Option String := none
  logLevel : String := "info"
  address : Option String := none
  grpcAddress : Option String := none
  storeInterval : Option Nat := none
  fileStoragePath : Option String := none
  restore : Option Bool := none
  databaseDsn : Option String := none
  key : Option String := none
  cryptoKey : Option String := none
  trustedSubnet : Option Subnet := none
  dbCheckInterval : Option Nat := none

namespace ServerCommand

open CommandLine

def choices : List (Choice ServerCommand) :=
  [ ⟨"config", some 'c', "CONFIG", fun v =>
      (path? v).map fun p c => { c with config := some p }⟩,
    ⟨"address", some 'a', "ADDRESS", fun v => some fun c => { c with address := some v }⟩,
    ⟨"grpc-address", none, "GRPC_ADDRESS", fun v =>
      some fun c => { c with grpcAddress := some v }⟩,
    ⟨"store-interval", some 'i', "STORE_INTERVAL", fun v =>
      (natural? v).map fun n c => { c with storeInterval := some n }⟩,
    ⟨"file-storage-path", some 'f', "FILE_STORAGE_PATH", fun v =>
      (path? v).map fun p c => { c with fileStoragePath := some p }⟩,
    ⟨"restore", some 'r', "RESTORE", fun v =>
      (bool? v).map fun b c => { c with restore := some b }⟩,
    ⟨"database-dsn", some 'd', "DATABASE_DSN", fun v =>
      some fun c => { c with databaseDsn := some v }⟩,
    ⟨"key", some 'k', "KEY", fun v => some fun c => { c with key := some v }⟩,
    ⟨"crypto-key", none, "CRYPTO_KEY", fun v =>
      (path? v).map fun p c => { c with cryptoKey := some p }⟩,
    ⟨"trusted-subnet", some 't', "TRUSTED_SUBNET", fun v =>
      (Subnet.ofText? v).map fun n c => { c with trustedSubnet := some n }⟩,
    ⟨"db-check-interval", none, "DB_CHECK_INTERVAL", fun v =>
      (natural? v).map fun n c => { c with dbCheckInterval := some n }⟩,
    ⟨"log-level", some 'l', "LOG_LEVEL", fun v => some fun c => { c with logLevel := v }⟩ ]

/-- Reads the command from arguments and environment. -/
def read (environment : String → Option String) (arguments : List String) :
    Except Ending ServerCommand :=
  CommandLine.read choices environment {} arguments

/-- Settings with what the command says about them. -/
def apply (c : ServerCommand) (s : ServerSettings) : ServerSettings :=
  { s with
    address := c.address.getD s.address
    grpcAddress := c.grpcAddress.or s.grpcAddress
    storeIntervalSecs := c.storeInterval.getD s.storeIntervalSecs
    fileStoragePath := c.fileStoragePath.or s.fileStoragePath
    restore := c.restore.getD s.restore
    databaseDsn := c.databaseDsn.or s.databaseDsn
    key := c.key.or s.key
    cryptoKey := c.cryptoKey.or s.cryptoKey
    trustedSubnet := c.trustedSubnet.or s.trustedSubnet
    dbCheckIntervalSecs := c.dbCheckInterval.getD s.dbCheckIntervalSecs }

end ServerCommand

end Telemetry
