import Telemetry.Fault
import Telemetry.Retry.Policy
import Telemetry.Store.Call

/-!
# Trying again

A call is tried until it succeeds, fails for good, or the tries are used up. Between
two tries there is a wait, which the stop signal ends. A try that takes longer than the
policy allows counts as a store that cannot be reached.

What a try, a wait and the signal are is left to the surroundings, so the loop runs on
a clock as well as on a record of outcomes.
-/

namespace Telemetry

/-- What the loop needs of its surroundings. -/
structure RetrySurroundings (m : Type → Type) where
  /-- makes a call, for as long as is allowed; nothing if that was not long enough -/
  within : {α : Type} → Option Nanos → m α → m (Option α)
  /-- whether the stop signal is on -/
  isStopping : m Bool
  /-- waits; whether the stop signal came first -/
  pause : Nanos → m Bool

/-- Surroundings in which nothing takes time and nobody is told to stop. -/
def RetrySurroundings.immediate {m : Type → Type} [Monad m] : RetrySurroundings m :=
  { within := fun _ call => do pure (some (← call))
    isStopping := pure false
    pause := fun _ => pure false }

namespace RetryPolicy

/-- The fault of a try that took too long. -/
def tooLong (p : RetryPolicy) (operation : String) : Fault :=
  .storageUnavailable (operation ++ ": " ++ ((p.callTimeout.getD 0).text ++ " 타임아웃"))

/-- Try number `attempt`, with `left` more tries after it. -/
def tryFrom {m : Type → Type} [Monad m] {α : Type} (p : RetryPolicy)
    (around : RetrySurroundings m) (operation : String) (call : m (Except Fault α)) :
    (left attempt : Nat) → m (Except Fault α)
  | left, attempt => do
    let outcome ← around.within p.callTimeout call
    match outcome.getD (.error (p.tooLong operation)) with
    | .ok a => pure (.ok a)
    | .error f =>
      if !f.isTransient then pure (.error f)
      else
        match left with
        | 0 => pure (.error f)
        | left + 1 =>
          if ← around.isStopping then pure (.error .cancelled)
          else if ← around.pause (p.delay attempt) then pure (.error .cancelled)
          else tryFrom p around operation call left (attempt + 1)

/-- A call with its retries. -/
def retrying {m : Type → Type} [Monad m] {α : Type} (p : RetryPolicy)
    (around : RetrySurroundings m) (operation : String) (call : m (Except Fault α)) :
    m (Except Fault α) :=
  p.tryFrom around operation call p.maxRetries 0

/-- A store whose calls are retried, except for the question whether it can be
reached. -/
def store {m : Type → Type} [Monad m] (p : RetryPolicy) (around : RetrySurroundings m)
    (inner : Store m) : Store m
  | .ping => inner .ping
  | c => p.retrying around c.word (inner c)

end RetryPolicy

end Telemetry
