import Telemetry.Retry.Loop
import Telemetry.StopSignal

/-!
# A simulated clock

Runs on this clock take no time but in their waits, and a wait takes exactly as long as
it says, in whole milliseconds. The stop signal may change at moments laid down before.
Whoever waits for a run can give up at a deadline; the run is then cut off in the middle
of the wait that would have gone beyond it.
-/

namespace Telemetry

structure Clock (σ : Type) where
  now : Nanos
  signal : Option StopSignal
  /-- what happens to the signal, and when, in order -/
  events : List (Nanos × (StopSignal → StopSignal))
  /-- when those who wait give up, the innermost first -/
  deadlines : List Nanos
  world : σ

/-- A run on the clock. One that is cut off tells by which deadline. -/
abbrev Timed (σ : Type) := ExceptT Nat (StateM (Clock σ))

namespace Clock

/-- The clock at its beginning. -/
def start {σ : Type} (world : σ) (signal : Option StopSignal) : Clock σ :=
  ⟨0, signal, [], [], world⟩

/-- A span of time, in whole milliseconds and not shorter than it is. -/
def wholeMillis (t : Nanos) : Nanos := (t + 999999) / 1000000 * 1000000

/-- The earliest of some deadlines, the innermost of those that coincide, with its
place. -/
def earliest : List Nanos → Option (Nat × Nanos)
  | [] => none
  | d :: rest =>
    match earliest rest with
    | some (i, e) => if e < d then some (i + 1, e) else some (0, d)
    | none => some (0, d)

/-- The clock at a moment, with all that happened until then. -/
def moveTo {σ : Type} (c : Clock σ) (moment : Nanos) : Clock σ :=
  let now := max c.now moment
  let (due, later) := c.events.partition fun e => e.1 ≤ now
  { c with
    now := now
    events := later
    signal := c.signal.map fun s => due.foldl (fun s e => e.2 s) s }

/-- The moment before `target` at which the signal comes on. -/
def stopBefore? {σ : Type} (c : Clock σ) (target : Nanos) : Option Nanos :=
  match c.signal with
  | none => none
  | some s => (c.events.find? fun e => e.1 < target && (e.2 s).on).map (·.1)

end Clock

namespace Timed

/-- Waits until a moment. -/
def sleepUntil {σ : Type} (moment : Nanos) : Timed σ Unit := do
  match Clock.earliest (← get).deadlines with
  | some (i, d) =>
    if d < moment then do
      modify fun c => c.moveTo d
      throw i
    else modify fun c => c.moveTo moment
  | none => modify fun c => c.moveTo moment

/-- Waits for a span of time. -/
def sleep {σ : Type} (span : Nanos) : Timed σ Unit := do
  sleepUntil (Clock.wholeMillis ((← get).now + span))

/-- Waits for ever; without a deadline, the run is cut off at once. -/
def never {σ α : Type} : Timed σ α := do
  match Clock.earliest (← get).deadlines with
  | some (i, d) => do
    modify fun c => c.moveTo d
    throw i
  | none => throw 0

/-- Runs for a span of time at most; nothing if that was not enough. -/
def within {σ α : Type} (limit : Option Nanos) (run : Timed σ α) : Timed σ (Option α) := do
  match limit with
  | none => pure (some (← run))
  | some limit => do
    let outer := (← get).deadlines
    let deadline := Clock.wholeMillis ((← get).now + limit)
    modify fun c => { c with deadlines := deadline :: outer }
    let result ← (ExceptT.mk do
      match ← ExceptT.run run with
      | .ok a => pure (.ok (some a))
      | .error 0 => pure (.ok none)
      | .error (i + 1) => pure (.error i) : Timed σ (Option α))
    modify fun c => { c with deadlines := outer }
    pure result

/-- Waits for a span of time; whether the stop signal came before its end. -/
def pause {σ : Type} (span : Nanos) : Timed σ Bool := do
  let c ← get
  let target := Clock.wholeMillis (c.now + span)
  match c.stopBefore? target with
  | some moment => sleepUntil moment; pure true
  | none => sleepUntil target; pure false

/-- What retried calls find on the clock. -/
def surroundings {σ : Type} : RetrySurroundings (Timed σ) :=
  { within := within
    isStopping := do pure (((← get).signal.map fun s => s.on).getD false)
    pause := pause }

/-- Runs until someone gives up, if anyone does; nothing if he did. What was still to
happen to the signal is forgotten in the end. -/
def runFor {σ α : Type} (c : Clock σ) (events : List (Nanos × (StopSignal → StopSignal)))
    (giveUp : Option Nanos) (run : Timed σ α) : Option α × Clock σ :=
  let (result, after) := (ExceptT.run run).run
    { c with events := events, deadlines := giveUp.toList }
  (result.toOption, { after with events := [], deadlines := [] })

end Timed

end Telemetry
