import Mathlib.Data.List.Induction
import Telemetry.StopSignal

/-!
# The receivers of a stop signal

The owner of a signal hands out receivers, which can be copied, and triggers the signal or leaves.
What a loop is told that has one of the receivers depends on how it listens. Who waits for the
signal itself is told once it was triggered, whatever else happened (`Attention.Told`). Who waits
for news compares versions: a receiver that was subscribed when the signal was on already has seen
the only news that there will ever be, and the owner's leaving counts as news.

So the two ways agree on a history unless the owner has left without triggering, or the receiver
came late and the owner is still there (`Attention.edge_agrees_iff`).
-/

namespace Telemetry

/-- Somebody's end of the signal. -/
structure Receiver where
  listener : StopListener
  /-- whether the signal was on when it, or the one that it is a copy of, was subscribed -/
  late : Bool
deriving DecidableEq

/-- A signal with all receivers that were handed out, the earliest first. -/
structure Lifecycle where
  signal : StopSignal
  receivers : List Receiver
deriving DecidableEq

namespace Lifecycle

/-- What can happen to a signal. That the owner does nothing after it has left is not asked for:
what follows holds of any sequence of events. -/
inductive Event
  | subscribe
  /-- a receiver is copied, with what it has seen -/
  | clone (receiver : Nat)
  | trigger
  /-- the owner leaves -/
  | drop
deriving DecidableEq

/-- What an event makes of the signal. -/
def Event.act : Event → StopSignal → StopSignal
  | .trigger, s => s.trigger
  | .drop, s => s.abandon
  | _, s => s

def start : Lifecycle := ⟨.fresh, []⟩

def step (l : Lifecycle) (e : Event) : Lifecycle :=
  { signal := e.act l.signal
    receivers :=
      match e with
      | .subscribe => l.receivers ++ [⟨l.signal.subscribe, l.signal.on⟩]
      | .clone i => l.receivers ++ l.receivers[i]?.toList
      | _ => l.receivers }

/-- A signal after all that has happened to it. -/
def run (history : List Event) : Lifecycle := history.foldl step start

theorem run_concat (history : List Event) (e : Event) :
    run (history ++ [e]) = (run history).step e := by
  unfold run
  rw [List.foldl_append]
  rfl

/-- A receiver stays among those that were handed out. -/
theorem mem_receivers_step {l : Lifecycle} {r : Receiver} (h : r ∈ l.receivers) (e : Event) :
    r ∈ (l.step e).receivers := by
  cases e with
  | subscribe => exact List.mem_append_left _ h
  | clone i => exact List.mem_append_left _ h
  | trigger => exact h
  | drop => exact h

theorem mem_receivers_append {history : List Event} {r : Receiver}
    (h : r ∈ (run history).receivers) (later : List Event) :
    r ∈ (run (history ++ later)).receivers := by
  induction later using List.reverseRecOn with
  | nil => rwa [List.append_nil]
  | append_singleton later e ih =>
    rw [← List.append_assoc, run_concat]
    exact mem_receivers_step ih e

/-! ## What a history leaves behind -/

/-- What holds of a signal and its receivers after a history. -/
structure Sound (history : List Event) (l : Lifecycle) : Prop where
  on : l.signal.on = true ↔ .trigger ∈ history
  owned : l.signal.owned = false ↔ .drop ∈ history
  /-- the signal is switched once, if ever -/
  version : l.signal.version = l.signal.on.toNat
  /-- only who came late has seen that -/
  seen : ∀ r ∈ l.receivers, r.listener.seen = r.late.toNat
  late : ∀ r ∈ l.receivers, r.late = true → l.signal.on = true

section Steps

variable {history : List Event} {l : Lifecycle}

theorem Sound.subscribe (h : Sound history l) :
    Sound (history ++ [.subscribe]) (l.step .subscribe) := by
  have hnew : ∀ r ∈ (l.step .subscribe).receivers,
      r ∈ l.receivers ∨ r = ⟨l.signal.subscribe, l.signal.on⟩ := fun r hr =>
    (List.mem_append.mp hr).imp_right List.mem_singleton.mp
  refine ⟨?_, ?_, h.version, fun r hr => ?_, fun r hr hlate => ?_⟩
  · simpa [step, Event.act] using h.on
  · simpa [step, Event.act] using h.owned
  · obtain hr | rfl := hnew r hr
    · exact h.seen r hr
    · exact h.version
  · obtain hr | rfl := hnew r hr
    · exact h.late r hr hlate
    · exact hlate

theorem Sound.clone (h : Sound history l) (i : Nat) :
    Sound (history ++ [.clone i]) (l.step (.clone i)) := by
  have hold : ∀ r ∈ (l.step (.clone i)).receivers, r ∈ l.receivers := fun r hr =>
    (List.mem_append.mp hr).elim id fun hr =>
      List.mem_of_getElem? (Option.mem_toList.mp hr)
  refine ⟨?_, ?_, h.version, fun r hr => h.seen r (hold r hr), fun r hr => h.late r (hold r hr)⟩
  · simpa [step, Event.act] using h.on
  · simpa [step, Event.act] using h.owned

theorem Sound.trigger (h : Sound history l) :
    Sound (history ++ [.trigger]) (l.step .trigger) := by
  have hon : l.signal.trigger.on = true := by
    unfold StopSignal.trigger
    split
    next hon => exact hon
    next => rfl
  have howned : l.signal.trigger.owned = l.signal.owned := by
    unfold StopSignal.trigger
    split <;> rfl
  refine ⟨?_, ?_, ?_, h.seen, fun _ _ _ => hon⟩
  · exact ⟨fun _ => List.mem_concat_self, fun _ => hon⟩
  · show l.signal.trigger.owned = false ↔ _
    rw [howned, h.owned]
    simp
  · show l.signal.trigger.version = l.signal.trigger.on.toNat
    rw [hon]
    have hversion := h.version
    unfold StopSignal.trigger
    split
    next hbefore => rw [hversion, hbefore]
    next hbefore =>
      rw [Bool.not_eq_true] at hbefore
      rw [hbefore] at hversion
      exact congrArg (· + 1) hversion

theorem Sound.drop (h : Sound history l) : Sound (history ++ [.drop]) (l.step .drop) := by
  refine ⟨?_, ?_, h.version, h.seen, h.late⟩
  · simpa [step, Event.act, StopSignal.abandon] using h.on
  · exact ⟨fun _ => List.mem_concat_self, fun _ => rfl⟩

theorem Sound.step (h : Sound history l) (e : Event) : Sound (history ++ [e]) (l.step e) := by
  cases e with
  | subscribe => exact h.subscribe
  | clone i => exact h.clone i
  | trigger => exact h.trigger
  | drop => exact h.drop

end Steps

theorem sound_run (history : List Event) : Sound history (run history) := by
  induction history using List.reverseRecOn with
  | nil =>
    have hnone : ∀ e : Event, e ∉ ([] : List Event) := fun _ => List.not_mem_nil
    refine ⟨iff_of_false (by decide) (hnone _), iff_of_false (by decide) (hnone _), rfl, ?_, ?_⟩
    · exact fun r hr => absurd hr List.not_mem_nil
    · exact fun r hr => absurd hr List.not_mem_nil
  | append_singleton history e ih =>
    rw [run_concat]
    exact ih.step e

end Lifecycle

namespace Attention

open Lifecycle (Event)

/-- Whether a history tells a loop to end that listens in this way, by a receiver that came late or
did not. -/
def Told (late : Bool) (history : List Event) : Attention → Prop
  | .level => .trigger ∈ history
  | .edge => .trigger ∈ history ∧ late = false ∨ .drop ∈ history

instance (late : Bool) (history : List Event) : (a : Attention) → Decidable (a.Told late history)
  | .level => inferInstanceAs (Decidable (.trigger ∈ history))
  | .edge => inferInstanceAs (Decidable (.trigger ∈ history ∧ late = false ∨ .drop ∈ history))

/-- **What a receiver hears** depends on the history and on when it was subscribed. -/
theorem hears_iff {history : List Event} {r : Receiver}
    (hr : r ∈ (Lifecycle.run history).receivers) (a : Attention) :
    a.hears (Lifecycle.run history).signal r.listener = true ↔ a.Told r.late history := by
  have hsound := Lifecycle.sound_run history
  cases a with
  | level => exact hsound.on
  | edge =>
    have hnews : (Lifecycle.run history).signal.version ≠ r.listener.seen ↔
        .trigger ∈ history ∧ r.late = false := by
      rw [hsound.version, hsound.seen r hr, ← hsound.on]
      have hlate := hsound.late r hr
      cases hon : (Lifecycle.run history).signal.on <;> cases hr : r.late <;> simp_all
    unfold hears Told StopSignal.changed
    simp only [Bool.or_eq_true, decide_eq_true_eq, Bool.not_eq_true', hnews, hsound.owned]

/-- Who was told once is told for good. -/
theorem Told.append {a : Attention} {late : Bool} {history : List Event}
    (h : a.Told late history) (later : List Event) : a.Told late (history ++ later) := by
  cases a with
  | level => exact List.mem_append_left _ h
  | edge =>
    exact h.imp (And.imp_left (List.mem_append_left _)) (List.mem_append_left _)

/-- **When the two ways of listening agree.** After the signal was triggered, unless the receiver
came late and the owner is there; before that, unless the owner has left. -/
theorem edge_agrees_iff {late : Bool} {history : List Event} :
    (edge.Told late history ↔ level.Told late history) ↔
      if .trigger ∈ history then late = true → .drop ∈ history else .drop ∉ history := by
  show (.trigger ∈ history ∧ late = false ∨ .drop ∈ history ↔ .trigger ∈ history) ↔ _
  by_cases htrigger : .trigger ∈ history
  · rw [if_pos htrigger]
    cases late <;> simp [htrigger]
  · rw [if_neg htrigger]
    simp [htrigger]

end Attention

end Telemetry
