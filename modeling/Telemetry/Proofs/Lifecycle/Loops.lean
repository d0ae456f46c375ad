import Telemetry.Agent.Collector
import Telemetry.Proofs.Lifecycle.Receivers
import Telemetry.Store.Failover
import Telemetry.Store.SnapshotLoop

/-!
# Loops that end with the stop signal

A loop in the background works and looks at its receiver in turn, in any order, while things happen
to the signal. Work never ends it. So once it has looked it is over just if the history tells it to
end, in its way of listening (`StoppableLoop.running_after_look`); what it has worked on and when it
has looked before make no difference.

The collector and the monitor wait for news of the signal, the loop of the snapshots for the signal
itself.
-/

namespace Telemetry

open Lifecycle (Event)

/-- A loop seen from the stop signal. Its state is all that it works on, and its input is what else
a turn depends on. -/
structure StoppableLoop (State Input : Type) where
  attention : Attention
  listener : State → StopListener
  running : State → Bool
  /-- a turn of the loop -/
  work : State → Input → State
  /-- the loop looks at the signal -/
  look : State → StopSignal → State
  listener_work : ∀ s i, listener (work s i) = listener s
  running_work : ∀ s i, running (work s i) = running s
  listener_look : ∀ s signal, listener (look s signal) = listener s
  running_look : ∀ s signal,
    running (look s signal) = (running s && !attention.hears signal (listener s))

namespace StoppableLoop

/-- What can happen while there is a loop. -/
inductive Moment (Input : Type)
  /-- something happens to the signal -/
  | event (e : Event)
  | work (input : Input)
  | look

section Run

variable {State Input : Type}

def Moment.event? : Moment Input → Option Event
  | .event e => some e
  | _ => none

/-- What happened to the signal. -/
def events (moments : List (Moment Input)) : List Event := moments.filterMap Moment.event?

theorem events_append (moments later : List (Moment Input)) :
    events (moments ++ later) = events moments ++ events later := List.filterMap_append

variable (loop : StoppableLoop State Input)

def step (now : Lifecycle × State) : Moment Input → Lifecycle × State
  | .event e => (now.1.step e, now.2)
  | .work i => (now.1, loop.work now.2 i)
  | .look => (now.1, loop.look now.2 now.1.signal)

/-- The signal and the loop after some moments, if the loop got its receiver after a history. -/
def run (before : List Event) (s : State) (moments : List (Moment Input)) : Lifecycle × State :=
  moments.foldl loop.step (Lifecycle.run before, s)

theorem run_concat (before : List Event) (s : State) (moments : List (Moment Input))
    (m : Moment Input) :
    loop.run before s (moments ++ [m]) = loop.step (loop.run before s moments) m := by
  unfold run
  rw [List.foldl_append]
  rfl

/-- What holds all along of a loop with a receiver: it ends only if it is told to. -/
structure Follows (r : Receiver) (s : State) (history : List Event) (now : Lifecycle × State) :
    Prop where
  lifecycle : now.1 = Lifecycle.run history
  listener : loop.listener now.2 = r.listener
  running : loop.running now.2 = true → loop.running s = true
  told : loop.running s = true → loop.running now.2 = false → loop.attention.Told r.late history

variable {loop} {before history : List Event} {r : Receiver} {s : State} {now : Lifecycle × State}

/-- What a look at the receiver finds. -/
theorem Follows.hears_iff (h : loop.Follows r s history now)
    (hr : r ∈ (Lifecycle.run history).receivers) :
    loop.attention.hears now.1.signal (loop.listener now.2) = true ↔
      loop.attention.Told r.late history := by
  rw [h.lifecycle, h.listener]
  exact Attention.hears_iff hr loop.attention

theorem Follows.step (h : loop.Follows r s history now)
    (hr : r ∈ (Lifecycle.run history).receivers) (m : Moment Input) :
    loop.Follows r s (history ++ events [m]) (loop.step now m) := by
  cases m with
  | event e =>
    show loop.Follows r s (history ++ [e]) (now.1.step e, now.2)
    refine ⟨?_, h.listener, h.running, fun hs hover => (h.told hs hover).append [e]⟩
    rw [Lifecycle.run_concat, h.lifecycle]
  | work i =>
    show loop.Follows r s (history ++ []) (now.1, loop.work now.2 i)
    rw [List.append_nil]
    refine ⟨h.lifecycle, ?_, ?_, ?_⟩
    · exact (loop.listener_work now.2 i).trans h.listener
    · dsimp only
      rw [loop.running_work]
      exact h.running
    · dsimp only
      rw [loop.running_work]
      exact h.told
  | look =>
    show loop.Follows r s (history ++ []) (now.1, loop.look now.2 now.1.signal)
    rw [List.append_nil]
    refine ⟨h.lifecycle, ?_, ?_, ?_⟩
    · exact (loop.listener_look now.2 now.1.signal).trans h.listener
    · dsimp only
      rw [loop.running_look, Bool.and_eq_true]
      exact fun hrunning => h.running hrunning.1
    · dsimp only
      rw [loop.running_look, Bool.and_eq_false_iff, Bool.not_eq_false']
      rintro hs (hover | hhears)
      · exact h.told hs hover
      · exact (h.hears_iff hr).mp hhears

/-- **A whole run.** -/
theorem follows_run (hr : r ∈ (Lifecycle.run before).receivers) (hs : loop.listener s = r.listener)
    (moments : List (Moment Input)) :
    loop.Follows r s (before ++ events moments) (loop.run before s moments) := by
  induction moments using List.reverseRecOn with
  | nil =>
    show loop.Follows r s (before ++ []) (Lifecycle.run before, s)
    rw [List.append_nil]
    exact ⟨rfl, hs, id, fun hrunning hover => absurd hrunning (by rw [hover]; decide)⟩
  | append_singleton moments m ih =>
    rw [run_concat, events_append, ← List.append_assoc]
    exact ih.step (Lifecycle.mem_receivers_append hr _) m

/-- **After a look** a loop runs on exactly if it ran at all and was not told to end. -/
theorem running_after_look (hr : r ∈ (Lifecycle.run before).receivers)
    (hs : loop.listener s = r.listener) (moments : List (Moment Input)) :
    loop.running (loop.run before s (moments ++ [.look])).2 = true ↔
      loop.running s = true ∧ ¬loop.attention.Told r.late (before ++ events moments) := by
  have hfollows := follows_run hr hs moments
  have hhears := hfollows.hears_iff (Lifecycle.mem_receivers_append hr _)
  rw [run_concat]
  show loop.running (loop.look _ _) = true ↔ _
  rw [loop.running_look, Bool.and_eq_true, Bool.not_eq_true', ← Bool.not_eq_true, hhears]
  constructor
  · rintro ⟨hrunning, hnot⟩
    exact ⟨hfollows.running hrunning, hnot⟩
  · rintro ⟨hrunning, hnot⟩
    refine ⟨?_, hnot⟩
    by_contra hover
    exact hnot (hfollows.told hrunning (Bool.eq_false_iff.mpr hover))

end Run

end StoppableLoop

/-! ## The loops -/

/-- The collector reads the machine at each tick. -/
def Collector.stoppable : StoppableLoop Collector Readings where
  attention := attention
  listener := Collector.listener
  running := Collector.running
  work := tick
  look := listen
  listener_work := by
    intro c machine
    unfold tick
    split <;> rfl
  running_work := by
    intro c machine
    unfold tick
    split <;> rfl
  listener_look := by
    intro c signal
    unfold listen
    split <;> rfl
  running_look := by
    intro c signal
    unfold listen
    split
    next hhears => simp [hhears]
    next hhears => simp [hhears]

/-- The monitor makes a check whenever one is due. -/
def MonitorLoop.stoppable : StoppableLoop MonitorLoop Nanos where
  attention := attention
  listener := MonitorLoop.listener
  running := MonitorLoop.running
  work l moment := if l.isDue moment then l.tick else l
  look := listen
  listener_work := by
    intro l moment
    split <;> rfl
  running_work := by
    intro l moment
    split <;> rfl
  listener_look := by
    intro l signal
    unfold listen
    split <;> rfl
  running_look := by
    intro l signal
    unfold listen
    split
    next hhears => simp [hhears]
    next hhears => simp [hhears]

namespace SnapshotLoop

theorem runUntil_listener_running (l : SnapshotLoop) (s : DumpingStore) (moment : Nanos) :
    (l.runUntil s moment).1.listener = l.listener ∧
      (l.runUntil s moment).1.running = l.running := by
  unfold runUntil
  induction List.range (l.dueCount moment) using List.reverseRecOn with
  | nil => exact ⟨rfl, rfl⟩
  | append_singleton ticks tick ih =>
    rw [List.foldl_append]
    exact ih

/-- The loop of the snapshots over a store. Between two of its turns others may have written to the
store; a turn makes all dumps that are due up to a moment. -/
def stoppable : StoppableLoop (SnapshotLoop × DumpingStore) (DumpingStore × Nanos) where
  attention := attention
  listener s := s.1.listener
  running s := s.1.running
  work s turn := s.1.runUntil turn.1 turn.2
  look s signal := s.1.listen s.2 signal
  listener_work s turn := (runUntil_listener_running s.1 turn.1 turn.2).1
  running_work s turn := (runUntil_listener_running s.1 turn.1 turn.2).2
  listener_look := by
    intro s signal
    unfold listen
    split <;> rfl
  running_look := by
    intro s signal
    unfold listen
    split
    next hends =>
      rw [Bool.and_eq_true] at hends
      simp [hends]
    next hstays =>
      rw [Bool.and_eq_true, not_and, Bool.not_eq_true] at hstays
      cases hrunning : s.1.running with
      | false => rfl
      | true =>
        rw [hstays hrunning]
        rfl

/-- The loop runs if there is a snapshot file, and an interval unless each write is dumped. -/
theorem start_running_iff (store : DumpingStore) (interval now : Nanos) (listener : StopListener) :
    (start store interval now listener).running = true ↔
      store.snapshot.isSome = true ∧ (store.dumpsWrites = true ∨ 0 < interval) := by
  unfold start
  cases hsnapshot : store.snapshot with
  | none => simp
  | some path =>
    cases hdumps : store.dumpsWrites with
    | true => simp
    | false =>
      by_cases hinterval : interval = 0
      · simp [hinterval]
      · simp [hinterval, Nat.pos_of_ne_zero hinterval]

theorem start_listener (store : DumpingStore) (interval now : Nanos) (listener : StopListener) :
    (start store interval now listener).listener = listener := by
  unfold start
  split
  · rfl
  · split
    · rfl
    · split <;> rfl

end SnapshotLoop

end Telemetry
