/-!
# The stop signal

A process has one stop signal. Its owner switches it on at most once; until then, and
for as long as anyone listens, it can be asked for. A listener remembers which state of
the signal it has seen last. There are two ways of listening: a loop can wait until the
signal is on, whoever has seen it (`Attention.level`), or until there is news: the
signal differs from what the listener has seen, or its owner is gone
(`Attention.edge`).
-/

namespace Telemetry

structure StopSignal where
  on : Bool
  /-- how often the signal was switched -/
  version : Nat
  /-- whether someone is left who could switch it -/
  owned : Bool
deriving DecidableEq, Repr

/-- Somebody who listens to the signal. A copy of a listener has seen the same. -/
structure StopListener where
  /-- the version that it has seen -/
  seen : Nat
deriving DecidableEq, Repr

namespace StopSignal

/-- A signal that is off. -/
def fresh : StopSignal := ⟨false, 0, true⟩

/-- Switches the signal on. The second time changes nothing. -/
def trigger (s : StopSignal) : StopSignal :=
  if s.on then s else { s with on := true, version := s.version + 1 }

/-- The owner leaves. -/
def abandon (s : StopSignal) : StopSignal := { s with owned := false }

/-- A new listener, who has seen the present state. -/
def subscribe (s : StopSignal) : StopListener := ⟨s.version⟩

/-- Whether a wait for the signal itself is over. Without an owner it never ends. -/
def stopped (s : StopSignal) : Bool := s.on

/-- Whether a wait for news is over. -/
def changed (s : StopSignal) (l : StopListener) : Bool := s.version ≠ l.seen || !s.owned

end StopSignal

/-- How a loop listens for its end. -/
inductive Attention
  /-- until the signal is on -/
  | level
  /-- until there is news of the signal -/
  | edge
deriving DecidableEq, Repr

/-- Whether a loop that listens in this way is told to end. -/
def Attention.hears (a : Attention) (s : StopSignal) (l : StopListener) : Bool :=
  match a with
  | .level => s.stopped
  | .edge => s.changed l

end Telemetry
