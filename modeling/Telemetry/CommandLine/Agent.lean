import Telemetry.CommandLine.Option
import Telemetry.Settings.Agent

/-!
# The command of an agent

Options and variables that are given go before the settings in a file.
-/

namespace Telemetry

structure AgentCommand where
  /-- the file with the settings -/
  config : Option String := none
  logLevel : String := "info"
  address : Option String := none
  pollInterval : Option Nat := none
  reportInterval : Option Nat := none
  rateLimit : Option Nat := none
  key : Option String := none
  cryptoKey : Option String := none
  transport : Option Transport := none
  batch : Option Bool := none

namespace AgentCommand

open CommandLine

def choices : List (Choice AgentCommand) :=
  [ ⟨"config", some 'c', "CONFIG", fun v =>
      (path? v).map fun p c => { c with config := some p }⟩,
    ⟨"address", some 'a', "ADDRESS", fun v => some fun c => { c with address := some v }⟩,
    ⟨"poll-interval", some 'p', "POLL_INTERVAL", fun v =>
      (natural? v).map fun n c => { c with pollInterval := some n }⟩,
    ⟨"report-interval", some 'r', "REPORT_INTERVAL", fun v =>
      (natural? v).map fun n c => { c with reportInterval := some n }⟩,
    ⟨"rate-limit", some 'l', "RATE_LIMIT", fun v =>
      (natural? v).map fun n c => { c with rateLimit := some n }⟩,
    ⟨"key", some 'k', "KEY", fun v => some fun c => { c with key := some v }⟩,
    ⟨"crypto-key", none, "CRYPTO_KEY", fun v =>
      (path? v).map fun p c => { c with cryptoKey := some p }⟩,
    ⟨"transport", none, "TRANSPORT", fun v =>
      (Transport.parse v).toOption.map fun t c => { c with transport := some t }⟩,
    ⟨"batch", none, "BATCH", fun v => (bool? v).map fun b c => { c with batch := some b }⟩,
    ⟨"log-level", none, "LOG_LEVEL", fun v => some fun c => { c with logLevel := v }⟩ ]

/-- Reads the command from arguments and environment. -/
def read (environment : String → Option String) (arguments : List String) :
    Except Ending AgentCommand :=
  CommandLine.read choices environment {} arguments

/-- Settings with what the command says about them. -/
def apply (c : AgentCommand) (s : AgentSettings) : AgentSettings :=
  { s with
    address := c.address.getD s.address
    pollIntervalSecs := c.pollInterval.getD s.pollIntervalSecs
    reportIntervalSecs := c.reportInterval.getD s.reportIntervalSecs
    rateLimit := c.rateLimit.getD s.rateLimit
    key := c.key.or s.key
    cryptoKey := c.cryptoKey.or s.cryptoKey
    transport := c.transport.getD s.transport
    batch := c.batch.getD s.batch }

end AgentCommand

end Telemetry
