import Telemetry.Proofs.Agent.Accounting
import Telemetry.Proofs.Lifecycle.Loops

/-!
# How the loops are stopped

Of the loops in the background only that of the snapshots ends exactly if the signal was triggered.
The others wait for news of it (`receivers_heeded`). So they end when the owner leaves without
triggering, and one that is started with the signal on runs until the owner leaves
(`monitor_misled`).

In the reporter the generator and the workers wait for news too, but a worker that gets a job looks
at the signal itself (`Reporter.Heeds`). Nothing in a reporter ends unless the signal was triggered
or the owner has left, and as long as there is no news and no metrics nothing ends at all.
-/

namespace Telemetry

namespace Reporter

/-- What an event does to the signal. -/
def Event.signal? : Event → Option Lifecycle.Event
  | .trigger => some .trigger
  | .abandon => some .drop
  | _ => none

/-- What happened to the signal. -/
def signals (events : List Event) : List Lifecycle.Event := events.filterMap Event.signal?

theorem signals_concat (events : List Event) (e : Event) :
    signals (events ++ [e]) = signals events ++ e.signal?.toList := by
  unfold signals
  rw [List.filterMap_append]
  cases e <;> rfl

/-- Whether the generator or some worker has ended. -/
def HasEnded (r : Reporter) : Prop := r.generator = .ended ∨ .ended ∈ r.workers

/-- Whether a reporter waits, with nothing to report and no job on its way. -/
structure Quiet (r : Reporter) : Prop where
  generator : r.generator = .waiting
  snapshot : r.snapshot = []
  queue : r.queue = []
  workers : ∀ w ∈ r.workers, w = .idle

/-- How the parts of a reporter attend to a signal with a history. -/
structure Heeds (r : Reporter) (late : Bool) (history : List Lifecycle.Event) : Prop where
  generator : (r.step .leave).1.generator = .ended ↔
    r.generator = .ended ∨ Attention.edge.Told late history
  /-- a worker that waits for a job -/
  waiting : ∀ w : Nat, (r.step (.retire w)).1.workers[w]? = some .ended ↔
    r.workers[w]? = some .ended ∨ r.workers[w]? = some .idle ∧
      (Attention.edge.Told late history ∨ r.generator = .ended ∧ r.queue = [])
  /-- a worker that gets one -/
  working : ∀ w : Nat, (r.step (.take w)).1.workers[w]? = some .ended ↔
    r.workers[w]? = some .ended ∨ r.workers[w]? = some .idle ∧ r.queue ≠ [] ∧
      Attention.level.Told late history

section Steps

variable {r : Reporter}

/-! ## The signal of a reporter -/

theorem news_retire (r : Reporter) (i : Nat) :
    (r.retire i).1.signal = r.signal ∧ (r.retire i).1.listener = r.listener := by
  unfold retire
  dsimp only
  split <;> exact ⟨rfl, rfl⟩

/-- Only the world outside changes the signal, and nothing changes the receiver. -/
theorem news_step (r : Reporter) (e : Event) :
    (r.step e).1.signal = (e.signal?.elim id Lifecycle.Event.act) r.signal ∧
      (r.step e).1.listener = r.listener := by
  cases e with
  | poll => exact ⟨rfl, rfl⟩
  | publish snapshot => exact ⟨rfl, rfl⟩
  | trigger => exact ⟨rfl, rfl⟩
  | abandon => exact ⟨rfl, rfl⟩
  | tick =>
    show (if r.generator = .waiting then r.tick else r).signal = r.signal ∧
      (if r.generator = .waiting then r.tick else r).listener = r.listener
    split
    next =>
      unfold tick
      split <;> exact ⟨rfl, rfl⟩
    next => exact ⟨rfl, rfl⟩
  | enqueue =>
    unfold step
    dsimp only
    split
    next => exact ⟨rfl, rfl⟩
    next =>
      split
      next => exact ⟨rfl, rfl⟩
      next => split <;> exact ⟨rfl, rfl⟩
    next => exact ⟨rfl, rfl⟩
  | leave =>
    unfold step
    dsimp only
    split <;> exact ⟨rfl, rfl⟩
  | take worker =>
    unfold step
    dsimp only
    split
    next =>
      unfold take
      dsimp only
      split
      next => exact news_retire _ worker
      next => exact ⟨rfl, rfl⟩
    next => exact ⟨rfl, rfl⟩
  | retire worker =>
    unfold step
    dsimp only
    split
    next => exact news_retire r worker
    next => exact ⟨rfl, rfl⟩
  | conclude worker outcome =>
    unfold step
    dsimp only
    split <;> exact ⟨rfl, rfl⟩
  | count =>
    unfold step
    dsimp only
    split <;> exact ⟨rfl, rfl⟩

/-! ## What ends -/

theorem workers_retire (r : Reporter) (i : Nat) :
    (r.retire i).1.workers = r.workers.set i .ended := by
  unfold retire
  dsimp only
  split <;> rfl

/-- A worker that is there has ended after it left. -/
theorem ended_retire {i : Nat} {w : Worker} (h : r.workers[i]? = some w) :
    (r.retire i).1.workers[i]? = some .ended := by
  obtain ⟨hi, -⟩ := List.getElem?_eq_some_iff.mp h
  rw [workers_retire, List.getElem?_set_self hi]

/-- The generator leaves exactly if it hears of the signal. -/
theorem leave_iff :
    (r.step .leave).1.generator = .ended ↔ r.generator = .ended ∨ r.hears = true := by
  unfold step
  dsimp only
  cases hhears : r.hears with
  | false => simp
  | true => cases hgenerator : r.generator <;> simp [leaveWith, hgenerator]

/-- A worker that waits leaves exactly if it hears of the signal or no job can come any more. -/
theorem retire_iff (w : Nat) : (r.step (.retire w)).1.workers[w]? = some .ended ↔
    r.workers[w]? = some .ended ∨ r.workers[w]? = some .idle ∧
      (r.hears = true ∨ r.generator = .ended ∧ r.queue = []) := by
  unfold step
  dsimp only
  split
  next hretires =>
    have hleaves : r.workers[w]? = some .idle ∧
        (r.hears = true ∨ r.generator = .ended ∧ r.queue = []) := by
      simpa using hretires
    exact iff_of_true (ended_retire hleaves.1) (Or.inr hleaves)
  next hretires =>
    have hstays : ¬(r.workers[w]? = some .idle ∧
        (r.hears = true ∨ r.generator = .ended ∧ r.queue = [])) := by
      simpa using hretires
    exact ⟨Or.inl, fun h => h.resolve_right hstays⟩

/-- A worker that gets a job leaves exactly if the signal is on. -/
theorem take_iff (w : Nat) : (r.step (.take w)).1.workers[w]? = some .ended ↔
    r.workers[w]? = some .ended ∨ r.workers[w]? = some .idle ∧ r.queue ≠ [] ∧
      r.signal.on = true := by
  unfold step
  dsimp only
  split
  next job rest hidle hqueue =>
    obtain ⟨hw, -⟩ := List.getElem?_eq_some_iff.mp hidle
    unfold take
    dsimp only
    split
    next hon =>
      refine iff_of_true ?_ (Or.inr ⟨hidle, by rw [hqueue]; nofun, hon⟩)
      exact ended_retire (r := { r with queue := rest }) hidle
    next hoff =>
      rw [List.getElem?_set_self hw, hidle]
      simp [hoff]
  next hnothing =>
    refine ⟨Or.inl, fun h => h.resolve_right fun ⟨hidle, hqueue, _⟩ => ?_⟩
    obtain ⟨job, rest, hcons⟩ := List.exists_cons_of_ne_nil hqueue
    exact hnothing job rest hidle hcons

/-- Who ends hears of the signal, finds it on, or is the last who is left. -/
theorem ended_step (hworkers : r.workers ≠ []) {e : Event} (h : (r.step e).1.HasEnded) :
    r.HasEnded ∨ r.hears = true ∨ r.signal.on = true := by
  have hset : ∀ {i : Nat} {w : Worker}, .ended ∈ r.workers.set i w → w ≠ .ended → r.HasEnded := by
    intro i w hmem hw
    exact Or.inr ((List.mem_or_eq_of_mem_set hmem).resolve_right hw.symm)
  cases e with
  | poll => exact Or.inl h
  | publish snapshot => exact Or.inl h
  | trigger => exact Or.inl h
  | abandon => exact Or.inl h
  | tick =>
    left
    change HasEnded (if r.generator = .waiting then r.tick else r) at h
    split at h
    next hwaiting =>
      unfold tick at h
      split at h
      next => exact h
      next =>
        refine h.imp (fun hgenerator => ?_) id
        dsimp only at hgenerator
        split at hgenerator <;> cases hgenerator
    next => exact h
  | enqueue =>
    left
    unfold step at h
    dsimp only at h
    split at h
    next => exact Or.inr (h.resolve_left nofun)
    next =>
      split at h
      next hended =>
        obtain ⟨w, ws, hcons⟩ := List.exists_cons_of_ne_nil hworkers
        have hw := List.all_eq_true.mp hended w (by rw [hcons]; exact List.mem_cons_self)
        exact Or.inr (by rw [hcons, of_decide_eq_true hw]; exact List.mem_cons_self)
      next =>
        split at h
        next =>
          refine Or.inr (h.resolve_left fun hgenerator => ?_)
          dsimp only at hgenerator
          split at hgenerator <;> cases hgenerator
        next => exact h
    next => exact h
  | leave =>
    unfold step at h
    dsimp only at h
    split at h
    next hhears _ => exact Or.inr (Or.inl hhears)
    next hhears _ => exact Or.inr (Or.inl hhears)
    next => exact Or.inl h
  | take worker =>
    unfold step at h
    dsimp only at h
    split at h
    next job rest hidle hqueue =>
      unfold take at h
      dsimp only at h
      split at h
      next hon => exact Or.inr (Or.inr hon)
      next => exact Or.inl (h.elim Or.inl fun hmem => hset hmem nofun)
    next => exact Or.inl h
  | retire worker =>
    unfold step at h
    dsimp only at h
    split at h
    next hretires =>
      simp only [Bool.and_eq_true, Bool.or_eq_true, decide_eq_true_eq] at hretires
      obtain ⟨-, hhears | ⟨hended, -⟩⟩ := hretires
      · exact Or.inr (Or.inl hhears)
      · exact Or.inl (Or.inl hended)
    next => exact Or.inl h
  | conclude worker outcome =>
    left
    unfold step at h
    dsimp only at h
    split at h
    next => exact h.elim Or.inl fun hmem => hset hmem nofun
    next => exact h
  | count =>
    left
    unfold step at h
    dsimp only at h
    split at h <;> exact h

/-- Without news and without metrics a reporter stays as it is. -/
theorem quiet_step (h : r.Quiet) (hhears : r.hears = false) {e : Event}
    (hempty : ∀ snapshot, e = .publish snapshot → snapshot = []) : (r.step e).1.Quiet := by
  obtain ⟨hgenerator, hsnapshot, hqueue, hworkers⟩ := h
  have h : r.Quiet := ⟨hgenerator, hsnapshot, hqueue, hworkers⟩
  cases e with
  | poll => exact ⟨hgenerator, hsnapshot, hqueue, hworkers⟩
  | publish snapshot => exact ⟨hgenerator, hempty snapshot rfl, hqueue, hworkers⟩
  | trigger => exact ⟨hgenerator, hsnapshot, hqueue, hworkers⟩
  | abandon => exact ⟨hgenerator, hsnapshot, hqueue, hworkers⟩
  | tick =>
    show (if r.generator = .waiting then r.tick else r).Quiet
    rw [if_pos hgenerator]
    unfold tick
    rw [hsnapshot]
    exact h
  | enqueue =>
    unfold step
    rw [hgenerator]
    exact h
  | leave =>
    unfold step
    rw [hhears]
    exact h
  | take worker =>
    unfold step
    rw [hqueue]
    dsimp only
    split
    next heq => cases heq
    next => exact h
  | retire worker =>
    unfold step
    dsimp only
    rw [if_neg (by simp [hhears, hgenerator])]
    exact h
  | conclude worker outcome =>
    unfold step
    dsimp only
    split
    next job hsending => cases hworkers _ (List.mem_of_getElem? hsending)
    next => exact h
  | count =>
    unfold step
    dsimp only
    split <;> exact ⟨hgenerator, hsnapshot, hqueue, hworkers⟩

end Steps

/-! ## Runs -/

/-- A reporter that has a receiver of a signal with a history. -/
structure Has (r : Reporter) (receiver : Receiver) (history : List Lifecycle.Event) : Prop where
  signal : r.signal = (Lifecycle.run history).signal
  listener : r.listener = receiver.listener
  mem : receiver ∈ (Lifecycle.run history).receivers

section Runs

variable {r : Reporter} {receiver : Receiver} {history : List Lifecycle.Event}

theorem Has.hears_iff (h : r.Has receiver history) :
    r.hears = true ↔ Attention.edge.Told receiver.late history := by
  unfold hears attention
  rw [h.signal, h.listener]
  exact Attention.hears_iff h.mem .edge

theorem Has.on_iff (h : r.Has receiver history) :
    r.signal.on = true ↔ Attention.level.Told receiver.late history := by
  rw [h.signal]
  exact (Lifecycle.sound_run history).on

theorem Has.heeds (h : r.Has receiver history) : r.Heeds receiver.late history := by
  refine ⟨?_, fun w => ?_, fun w => ?_⟩
  · rw [leave_iff, h.hears_iff]
  · rw [retire_iff, h.hears_iff]
  · rw [take_iff, h.on_iff]

theorem Has.step (h : r.Has receiver history) (e : Event) :
    (r.step e).1.Has receiver (history ++ e.signal?.toList) := by
  obtain ⟨hsignal, hlistener⟩ := news_step r e
  refine ⟨?_, hlistener.trans h.listener, Lifecycle.mem_receivers_append h.mem _⟩
  rw [hsignal, h.signal]
  cases e.signal? with
  | none =>
    rw [Option.toList_none, List.append_nil]
    rfl
  | some e =>
    rw [Option.toList_some, Lifecycle.run_concat]
    rfl

/-- **A whole run.** -/
theorem Has.run (h : r.Has receiver history) (events : List Event) :
    (r.run events).1.Has receiver (history ++ signals events) := by
  induction events using List.reverseRecOn with
  | nil =>
    show r.Has receiver (history ++ [])
    rwa [List.append_nil]
  | append_singleton events e ih =>
    rw [run_concat, signals_concat, ← List.append_assoc]
    exact ih.step e

/-- **Nothing ends without a reason.** -/
theorem Has.ended_run (h : r.Has receiver history) {settings : ReporterSettings}
    (hr : Accounted settings r []) (hworkers : settings.workers ≠ 0) (hbefore : ¬r.HasEnded)
    (events : List Event) (hended : (r.run events).1.HasEnded) :
    .trigger ∈ history ++ signals events ∨ .drop ∈ history ++ signals events := by
  induction events using List.reverseRecOn with
  | nil => exact absurd hended hbefore
  | append_singleton events e ih =>
    rw [run_concat] at hended
    rw [signals_concat, ← List.append_assoc]
    have hsome : (r.run events).1.workers ≠ [] := by
      rw [← List.length_pos_iff, (hr.run events).workers]
      exact Nat.pos_of_ne_zero hworkers
    -- what was a reason before the event is one after it
    have hlater : .trigger ∈ history ++ signals events ∨ .drop ∈ history ++ signals events →
        .trigger ∈ history ++ signals events ++ e.signal?.toList ∨
          .drop ∈ history ++ signals events ++ e.signal?.toList :=
      Or.imp (List.mem_append_left _) (List.mem_append_left _)
    obtain hold | hhears | hon := ended_step hsome hended
    · exact hlater (ih hold)
    · exact hlater (((h.run events).hears_iff.mp hhears).imp_left And.left)
    · exact hlater (Or.inl ((h.run events).on_iff.mp hon))

/-- **Who is not told waits on**, as long as there are no metrics. -/
theorem Has.quiet_run (h : r.Has receiver history) (hquiet : r.Quiet) (events : List Event)
    (hempty : ∀ snapshot, .publish snapshot ∈ events → snapshot = [])
    (htold : ¬Attention.edge.Told receiver.late (history ++ signals events)) :
    (r.run events).1.Quiet := by
  induction events using List.reverseRecOn with
  | nil => exact hquiet
  | append_singleton events e ih =>
    rw [signals_concat, ← List.append_assoc] at htold
    have hbefore : ¬Attention.edge.Told receiver.late (history ++ signals events) :=
      fun hold => htold (hold.append _)
    have hhears : (r.run events).1.hears = false := by
      rw [← Bool.not_eq_true, (h.run events).hears_iff]
      exact hbefore
    rw [run_concat]
    refine quiet_step (ih (fun s hs => hempty s (List.mem_append_left _ hs)) hbefore) hhears ?_
    rintro snapshot rfl
    exact hempty snapshot List.mem_concat_self

end Runs

theorem has_start {receiver : Receiver} {history : List Lifecycle.Event}
    (hmem : receiver ∈ (Lifecycle.run history).receivers) (settings : ReporterSettings)
    (ledger : PollLedger) (takesPolls : Bool) (snapshot : List Metric) :
    (start settings ledger takesPolls snapshot (Lifecycle.run history).signal
      receiver.listener).Has receiver history := ⟨rfl, rfl, hmem⟩

theorem not_ended_start (settings : ReporterSettings) (ledger : PollLedger) (takesPolls : Bool)
    (snapshot : List Metric) (signal : StopSignal) (listener : StopListener) :
    ¬(start settings ledger takesPolls snapshot signal listener).HasEnded := by
  rintro (hended | hended)
  · cases hended
  · cases List.eq_of_mem_replicate hended

theorem quiet_start (settings : ReporterSettings) (ledger : PollLedger) (takesPolls : Bool)
    (signal : StopSignal) (listener : StopListener) :
    (start settings ledger takesPolls [] signal listener).Quiet :=
  ⟨rfl, rfl, rfl, fun _ hw => List.eq_of_mem_replicate hw⟩

end Reporter

/-! ## All loops -/

/-- **How the loops heed a receiver**, whatever happened to the signal before they got it and
happens from then on. The collector and the monitor are over once they have looked exactly if there
was news for their receiver, the loop of the snapshots exactly if the signal was triggered. In the
reporter there is news for the generator and for a worker that waits, while a worker that gets a job
asks whether the signal was triggered; nothing ends if it was not and the owner is there, and
without news nothing ends as long as there are no metrics. There is news just if the signal was
triggered, unless the owner has left without triggering, or the receiver came late and the owner is
there. -/
theorem receivers_heeded {before : List Lifecycle.Event} {r : Receiver}
    (hr : r ∈ (Lifecycle.run before).receivers) :
    (∀ ledger moments,
      (Collector.stoppable.run before (.start ledger r.listener) (moments ++ [.look])).2.running =
          true ↔
        ¬Attention.edge.Told r.late (before ++ StoppableLoop.events moments)) ∧
    (∀ hasDurable interval now moments,
      (MonitorLoop.stoppable.run before (.start hasDurable interval now r.listener)
          (moments ++ [.look])).2.running = true ↔
        (hasDurable = true ∧ 0 < interval) ∧
          ¬Attention.edge.Told r.late (before ++ StoppableLoop.events moments)) ∧
    (∀ store interval now moments,
      (SnapshotLoop.stoppable.run before (.start store interval now r.listener, store)
          (moments ++ [.look])).2.1.running = true ↔
        (store.snapshot.isSome = true ∧ (store.dumpsWrites = true ∨ 0 < interval)) ∧
          .trigger ∉ before ++ StoppableLoop.events moments) ∧
    (∀ settings ledger takesPolls snapshot events,
      let reporter := ((Reporter.start settings ledger takesPolls snapshot
        (Lifecycle.run before).signal r.listener).run events).1
      let history := before ++ Reporter.signals events
      reporter.Heeds r.late history ∧
        (settings.workers ≠ 0 → reporter.HasEnded → .trigger ∈ history ∨ .drop ∈ history) ∧
        (snapshot = [] → (∀ later, .publish later ∈ events → later = []) →
          ¬Attention.edge.Told r.late history → reporter.Quiet)) ∧
    ∀ history, (Attention.edge.Told r.late history ↔ .trigger ∈ history) ↔
      if .trigger ∈ history then r.late = true → .drop ∈ history else .drop ∉ history := by
  refine ⟨fun ledger moments => ?_, fun hasDurable interval now moments => ?_,
    fun store interval now moments => ?_, fun settings ledger takesPolls snapshot events => ?_,
    fun history => Attention.edge_agrees_iff⟩
  · have hlook := Collector.stoppable.running_after_look hr (s := .start ledger r.listener) rfl
      moments
    exact hlook.trans (and_iff_right rfl)
  · have hlook := MonitorLoop.stoppable.running_after_look hr
      (s := .start hasDurable interval now r.listener) rfl moments
    have hstart : (MonitorLoop.start hasDurable interval now r.listener).running = true ↔
        hasDurable = true ∧ 0 < interval := by
      unfold MonitorLoop.start
      rw [Bool.and_eq_true, decide_eq_true_eq]
    exact hlook.trans (and_congr_left' hstart)
  · have hlook := SnapshotLoop.stoppable.running_after_look hr
      (s := (.start store interval now r.listener, store))
      (SnapshotLoop.start_listener store interval now r.listener) moments
    have hstart := SnapshotLoop.start_running_iff store interval now r.listener
    exact hlook.trans (and_congr_left' hstart)
  · have hhas := Reporter.has_start hr settings ledger takesPolls snapshot
    refine ⟨(hhas.run events).heeds, fun hworkers hended => ?_, fun hnone hempty htold => ?_⟩
    · exact hhas.ended_run (Reporter.accounted_start ..) hworkers
        (Reporter.not_ended_start _ _ _ _ _ _) events hended
    · subst hnone
      exact hhas.quiet_run (Reporter.quiet_start ..) events hempty htold

/-- A receiver that came when the signal was on: triggering once more ends no monitor and no
reporter that has it, and the owner's leaving does. -/
theorem receivers_heeded_late :
    let before : List Lifecycle.Event := [.trigger, .subscribe]
    let r : Receiver := ⟨⟨1⟩, true⟩
    let monitor := MonitorLoop.stoppable.run before (.start true 10 0 r.listener)
    let reporter := Reporter.start ⟨10, 1, true, 1⟩ .empty true [] (Lifecycle.run before).signal
      r.listener
    r ∈ (Lifecycle.run before).receivers ∧
      (monitor ([.work 10, .event .trigger] ++ [.look])).2.running = true ∧
      ¬(monitor ([.work 10, .event .drop] ++ [.look])).2.running = true ∧
      (reporter.run [.trigger, .tick, .leave, .retire 0]).1.Quiet ∧
      (reporter.run [.abandon, .leave]).1.HasEnded := by
  intro before r monitor reporter
  have hr : r ∈ (Lifecycle.run before).receivers := by decide
  obtain ⟨-, hmonitor, -, hreporter, -⟩ := receivers_heeded hr
  have htriggered := hreporter ⟨10, 1, true, 1⟩ .empty true [] [.trigger, .tick, .leave, .retire 0]
  have hleft := hreporter ⟨10, 1, true, 1⟩ .empty true [] [.abandon]
  refine ⟨hr, ?_, ?_, htriggered.2.2 rfl (by simp) (by decide), ?_⟩
  · exact (hmonitor true 10 0 _).mpr ⟨⟨rfl, by decide⟩, by decide⟩
  · exact fun hrunning => ((hmonitor true 10 0 _).mp hrunning).2 (by decide)
  · exact Or.inl (hleft.1.generator.mpr (Or.inr (by decide)))

/-- The owner leaves without triggering, and the monitor ends. The signal is on before a monitor is
started, and it runs on. -/
theorem monitor_misled :
    let monitor (before : List Lifecycle.Event) (r : Receiver) :=
      MonitorLoop.stoppable.run before (.start true (.ofSeconds 10) 0 r.listener)
    let early : Receiver := ⟨⟨0⟩, false⟩
    let late : Receiver := ⟨⟨1⟩, true⟩
    let left := monitor [.subscribe] early [.event .drop, .look]
    let missed := monitor [.trigger, .subscribe] late [.look]
    early ∈ (Lifecycle.run [.subscribe]).receivers ∧
      left.1.signal.on = false ∧ left.2.running = false ∧
      late ∈ (Lifecycle.run [.trigger, .subscribe]).receivers ∧
      missed.1.signal.on = true ∧ missed.2.running = true := by
  decide

end Telemetry
