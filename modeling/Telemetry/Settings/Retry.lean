import Telemetry.Json.Record
import Telemetry.Json.Writer
import Telemetry.Retry.Policy

/-!
# Settings of retrying

How the retrying of durable storage is set in a document, in milliseconds.
-/

namespace Telemetry

structure RetrySettings where
  maxRetries : Nat
  initialDelayMs : Nat
  multiplier : Binary64
  maxDelayMs : Nat
  callTimeoutMs : Option Nat

namespace RetrySettings

def standard : RetrySettings :=
  { maxRetries := 3
    initialDelayMs := 1000
    multiplier := Binary64.ofNat 3
    maxDelayMs := 5000
    callTimeoutMs := none }

def fields : List (Json.Field RetrySettings) :=
  [ ⟨"max_retries", false, fun s => do
      pure { s with maxRetries := ← Json.Reader.natural "u32" 32 }⟩,
    ⟨"initial_delay_ms", false, fun s => do
      pure { s with initialDelayMs := ← Json.Reader.natural "u64" 64 }⟩,
    ⟨"multiplier", false, fun s => do pure { s with multiplier := ← Json.Reader.real }⟩,
    ⟨"max_delay_ms", false, fun s => do
      pure { s with maxDelayMs := ← Json.Reader.natural "u64" 64 }⟩,
    ⟨"call_timeout_ms", false, fun s => do
      pure { s with callTimeoutMs :=
        ← Json.Reader.nullable (Json.Reader.natural "u64" 64) }⟩ ]

def reader : Json.Reader RetrySettings :=
  Json.Record.reader "StorageRetryConfig" fields standard

def document (s : RetrySettings) : String :=
  Json.object
    [ ("max_retries", natText s.maxRetries),
      ("initial_delay_ms", natText s.initialDelayMs),
      ("multiplier", s.multiplier.document),
      ("max_delay_ms", natText s.maxDelayMs),
      ("call_timeout_ms", Json.orNull (s.callTimeoutMs.map natText)) ]

/-- The policy that the settings describe. -/
def policy (s : RetrySettings) : RetryPolicy :=
  { maxRetries := s.maxRetries
    initialDelay := Nanos.ofMillis s.initialDelayMs
    multiplier := s.multiplier
    maxDelay := Nanos.ofMillis s.maxDelayMs
    callTimeout := s.callTimeoutMs.map Nanos.ofMillis }

end RetrySettings

end Telemetry
