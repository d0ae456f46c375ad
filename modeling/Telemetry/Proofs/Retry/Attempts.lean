import Telemetry.Simulation.Clock

/-!
# Which tries are made

A call that is going to be retried, with everything laid down that its tries meet: how long
each of them takes and how it ends, when it is called, and what becomes of the stop signal
(`Rehearsal`). From this alone it can be told when each try begins and what the loop makes of
it, and the last try is the first one after which the loop has no reason to go on.

On the clock the loop does just that (`Rehearsal.tries_made`): it makes these tries at these
moments, waits what the policy says between them, and hands on the last outcome as it is,
unless the signal ended it.
-/

namespace Telemetry

namespace Clock

theorem le_wholeMillis (t : Nat) : t ≤ wholeMillis t := by
  show t ≤ (t + 999999) / 1000000 * 1000000
  omega

variable {σ : Type} (k : Clock σ) (t : Nanos)

theorem events_moveTo :
    (k.moveTo t).events = k.events.filter fun e => !decide (e.1 ≤ max k.now t) := by
  simp only [moveTo, List.partition_eq_filter_filter]
  rfl

theorem signal_moveTo :
    (k.moveTo t).signal = k.signal.map fun s =>
      (k.events.filter fun e => decide (e.1 ≤ max k.now t)).foldl (fun s e => e.2 s) s := by
  simp only [moveTo, List.partition_eq_filter_filter]

end Clock

/-! ## Runs on the clock, in closed form -/

namespace Timed

variable {σ α β : Type}

theorem run_bind (x : Timed σ α) (f : α → Timed σ β) (k : Clock σ) :
    (x >>= f).run.run k =
      match x.run.run k with
      | (.ok a, k') => (f a).run.run k'
      | (.error i, k') => (.error i, k') := by
  simp only [ExceptT.run_bind, StateT.run_bind]
  rcases x.run.run k with ⟨i | a, k'⟩ <;> rfl

theorem run_pure (a : α) (k : Clock σ) : (pure a : Timed σ α).run.run k = (.ok a, k) := rfl

theorem run_throw (i : Nat) (k : Clock σ) :
    (throw i : Timed σ α).run.run k = (.error i, k) := rfl

theorem run_get (k : Clock σ) : (get : Timed σ (Clock σ)).run.run k = (.ok k, k) := rfl

theorem run_set (k k' : Clock σ) : (set k' : Timed σ Unit).run.run k = (.ok (), k') := rfl

theorem run_modify (f : Clock σ → Clock σ) (k : Clock σ) :
    (modify f : Timed σ Unit).run.run k = (.ok (), f k) := rfl

theorem sleepUntil_run (moment : Nanos) {k : Clock σ} (h : k.deadlines = []) :
    (sleepUntil moment).run.run k = (.ok (), k.moveTo moment) := by
  simp only [sleepUntil, run_bind, run_get, h, Clock.earliest]
  exact run_modify _ k

theorem sleepUntil_run_cut {moment d : Nanos} {k : Clock σ} (h : k.deadlines = [d])
    (hlt : d < moment) : (sleepUntil moment).run.run k = (.error 0, k.moveTo d) := by
  simp only [sleepUntil, run_bind, run_get, h, Clock.earliest, if_pos hlt, run_modify, run_throw]

theorem sleepUntil_run_due {moment d : Nanos} {k : Clock σ} (h : k.deadlines = [d])
    (hge : ¬ d < moment) : (sleepUntil moment).run.run k = (.ok (), k.moveTo moment) := by
  simp only [sleepUntil, run_bind, run_get, h, Clock.earliest, if_neg hge]
  exact run_modify _ k

theorem sleep_run (span : Nanos) (k : Clock σ) :
    (sleep span).run.run k = (sleepUntil (Clock.wholeMillis (k.now + span))).run.run k := by
  simp only [sleep, run_bind, run_get]

theorem never_run {d : Nanos} {k : Clock σ} (h : k.deadlines = [d]) :
    (never : Timed σ α).run.run k = (.error 0, k.moveTo d) := by
  simp only [never, run_bind, run_get, h, Clock.earliest, run_modify, run_throw]

theorem within_run (limit : Nanos) (run : Timed σ α) (k : Clock σ) :
    (within (some limit) run).run.run k =
      match run.run.run
        { k with deadlines := Clock.wholeMillis (k.now + limit) :: k.deadlines } with
      | (.ok a, k') => (.ok (some a), { k' with deadlines := k.deadlines })
      | (.error 0, k') => (.ok none, { k' with deadlines := k.deadlines })
      | (.error (i + 1), k') => (.error i, k') := by
  simp only [within, run_bind, run_get, run_modify, ExceptT.run_mk, StateT.run_bind]
  rcases run.run.run
    { k with deadlines := Clock.wholeMillis (k.now + limit) :: k.deadlines } with ⟨i | a, k'⟩
  · cases i <;> rfl
  · rfl

theorem pause_run (span : Nanos) {k : Clock σ} (h : k.deadlines = []) :
    (pause span).run.run k =
      match k.stopBefore? (Clock.wholeMillis (k.now + span)) with
      | some moment => (.ok true, k.moveTo moment)
      | none => (.ok false, k.moveTo (Clock.wholeMillis (k.now + span))) := by
  simp only [pause, run_bind, run_get]
  cases k.stopBefore? (Clock.wholeMillis (k.now + span)) with
  | none => simp only [run_bind, sleepUntil_run _ h, run_pure]
  | some moment => simp only [run_bind, sleepUntil_run _ h, run_pure]

end Timed

/-- Whether an outcome leaves nothing to be tried again. -/
def settles {α : Type} : Except Fault α → Bool
  | .ok _ => true
  | .error f => !f.isTransient

namespace RetryPolicy

variable {σ α : Type} (p : RetryPolicy) (around : RetrySurroundings (Timed σ)) (operation : String)
  (call : Timed σ (Except Fault α)) (left attempt : Nat) {k k' : Clock σ}
  {o : Option (Except Fault α)} {outcome : Except Fault α}

/-- A try that settles the matter, or the last one that is allowed. -/
theorem tryFrom_run_settled (h : (around.within p.callTimeout call).run.run k = (.ok o, k'))
    (ho : o.getD (.error (p.tooLong operation)) = outcome)
    (hsettled : settles outcome = true ∨ left = 0) :
    (p.tryFrom around operation call left attempt).run.run k = (.ok outcome, k') := by
  unfold tryFrom
  rw [Timed.run_bind, h]
  dsimp only
  rw [ho]
  cases outcome with
  | ok a => rfl
  | error f =>
    dsimp only
    rcases hsettled with hpermanent | rfl
    · have hgivenUp : (!f.isTransient) = true := hpermanent
      rw [if_pos hgivenUp]
      rfl
    · split <;> rfl

/-- A try that settles nothing, and what comes after it. -/
theorem tryFrom_run_unsettled (h : (around.within p.callTimeout call).run.run k = (.ok o, k'))
    (ho : o.getD (.error (p.tooLong operation)) = outcome) (hunsettled : settles outcome = false) :
    (p.tryFrom around operation call (left + 1) attempt).run.run k =
      (do
        if ← around.isStopping then pure (.error .cancelled)
        else if ← around.pause (p.delay attempt) then pure (.error .cancelled)
        else p.tryFrom around operation call left (attempt + 1) :
          Timed σ (Except Fault α)).run.run k' := by
  conv => lhs; unfold tryFrom
  rw [Timed.run_bind, h]
  dsimp only
  rw [ho]
  cases outcome with
  | ok a => cases hunsettled
  | error f =>
    have htransient : ¬ (!f.isTransient) = true := Bool.eq_false_iff.mp hunsettled
    dsimp only
    rw [if_neg htransient]

end RetryPolicy

/-! ## Calls laid down -/

/-- What the owner of the stop signal can do. -/
inductive SignalDeed
  | trigger
  | abandon
deriving DecidableEq

namespace SignalDeed

def change : SignalDeed → StopSignal → StopSignal
  | .trigger => StopSignal.trigger
  | .abandon => StopSignal.abandon

/-- A deed at a moment, as the clock has it. -/
def event (d : Nanos × SignalDeed) : Nanos × (StopSignal → StopSignal) := (d.1, d.2.change)

theorem on_change (d : SignalDeed) (s : StopSignal) :
    (d.change s).on = (s.on || d = .trigger) := by
  cases d with
  | trigger =>
    simp only [change, StopSignal.trigger]
    split
    next h => simpa using h
    next => simp
  | abandon => simp [change, StopSignal.abandon]

/-- What happened to a signal leaves it on if it was on or was switched on. -/
theorem on_foldl (due : List (Nanos × SignalDeed)) (s : StopSignal) :
    ((due.map event).foldl (fun s e => e.2 s) s).on =
      (s.on || due.any fun d => d.2 = .trigger) := by
  induction due generalizing s with
  | nil => simp
  | cons d due ih =>
    rw [List.map_cons, List.foldl_cons, ih]
    simp only [event, on_change, List.any_cons, Bool.or_assoc]

theorem filter_event (p : Nanos → Bool) (ahead : List (Nanos × SignalDeed)) :
    (ahead.map event).filter (fun e => p e.1) =
      (ahead.filter fun d => p d.1).map event := by
  rw [List.filter_map]
  rfl

end SignalDeed

/-- Whether a signal is on at a moment, if all that is ahead happens to it. -/
def isOnAt (signal : Option StopSignal) (ahead : List (Nanos × SignalDeed)) (t : Nanos) : Bool :=
  signal.any fun s => s.on || ahead.any fun d => d.1 ≤ t && d.2 = .trigger

/-- Whether it is on strictly before a moment. -/
def isOnBefore (signal : Option StopSignal) (ahead : List (Nanos × SignalDeed)) (t : Nanos) :
    Bool :=
  signal.any fun s => s.on || ahead.any fun d => d.1 < t && d.2 = .trigger

theorem isOnBefore_succ (signal : Option StopSignal) (ahead : List (Nanos × SignalDeed))
    (t : Nanos) : isOnBefore signal ahead (t + 1) = isOnAt signal ahead t := by
  simp only [isOnBefore, isOnAt, Nat.lt_succ_iff]

theorem isOnAt_of_isOnBefore {signal : Option StopSignal} {ahead : List (Nanos × SignalDeed)}
    {t : Nanos} (h : isOnBefore signal ahead t = true) : isOnAt signal ahead t = true := by
  simp only [isOnBefore, isOnAt, Option.any_eq_true, Bool.or_eq_true, List.any_eq_true,
    Bool.and_eq_true, decide_eq_true_eq] at h ⊢
  obtain ⟨s, hs, hon | ⟨d, hd, hlt, htrigger⟩⟩ := h
  · exact ⟨s, hs, .inl hon⟩
  · exact ⟨s, hs, .inr ⟨d, hd, Nat.le_of_lt hlt, htrigger⟩⟩

/-- A signal to which all happened that is due comes on when it would have, with the rest ahead. -/
theorem isOnAt_of_due (signal : Option StopSignal) (ahead : List (Nanos × SignalDeed))
    {t t' : Nanos} (h : t ≤ t') :
    isOnAt
        (signal.map fun s => ((ahead.filter fun d => decide (d.1 ≤ t)).map SignalDeed.event).foldl
          (fun s e => e.2 s) s)
        (ahead.filter fun d => !decide (d.1 ≤ t)) t' =
      isOnAt signal ahead t' := by
  cases signal with
  | none => rfl
  | some s =>
    simp only [isOnAt, Option.map_some, Option.any_some, SignalDeed.on_foldl, List.any_filter,
      Bool.or_assoc]
    congr 1
    rw [Bool.eq_iff_iff]
    simp only [Bool.or_eq_true, List.any_eq_true, Bool.and_eq_true, decide_eq_true_eq,
      Bool.not_eq_true', decide_eq_false_iff_not]
    constructor
    · rintro (⟨d, hd, hle, htrigger⟩ | ⟨d, hd, -, hle, htrigger⟩)
      · exact ⟨d, hd, Nat.le_trans hle h, htrigger⟩
      · exact ⟨d, hd, hle, htrigger⟩
    · rintro ⟨d, hd, hle, htrigger⟩
      rcases Nat.lt_or_ge t d.1 with hlt | hge
      · exact .inr ⟨d, hd, Nat.not_le.mpr hlt, hle, htrigger⟩
      · exact .inl ⟨d, hd, hge, htrigger⟩

/-- What is not due at a moment makes no difference at it. -/
theorem isOnAt_rest (signal : Option StopSignal) (ahead : List (Nanos × SignalDeed)) (t : Nanos) :
    isOnAt signal (ahead.filter fun d => !decide (d.1 ≤ t)) t = signal.any (·.on) := by
  cases signal with
  | none => rfl
  | some s =>
    have hnone : (ahead.filter fun d => !decide (d.1 ≤ t)).any
        (fun d => d.1 ≤ t && d.2 = .trigger) = false := by
      simp only [List.any_eq_false, List.mem_filter, Bool.not_eq_true', decide_eq_false_iff_not,
        Bool.and_eq_true, decide_eq_true_eq]
      rintro d ⟨-, hlater⟩ ⟨hdue, -⟩
      exact hlater hdue
    simp only [isOnAt, Option.any_some, hnone, Bool.or_false]

/-- How a try goes if nobody cuts it short. -/
structure Try (α : Type) where
  /-- how long it takes; nothing if it never ends -/
  span : Option Nanos
  outcome : Except Fault α

namespace Try

variable {α : Type}

/-- Whether a try begun at a moment takes longer than it may. -/
def isCut (t : Try α) (limit : Option Nanos) (moment : Nanos) : Bool :=
  match limit, t.span with
  | none, _ => false
  | some _, none => true
  | some limit, some span =>
    Clock.wholeMillis (moment + limit) < Clock.wholeMillis (moment + span)

theorem isCut_some {t : Try α} {span : Nanos} (h : t.span = some span) (limit moment : Nanos) :
    t.isCut (some limit) moment =
      decide (Clock.wholeMillis (moment + limit) < Clock.wholeMillis (moment + span)) := by
  unfold isCut
  rw [h]

/-- When a try begun at a moment is over, by itself or because it took too long. -/
def ending (t : Try α) (limit : Option Nanos) (moment : Nanos) : Nanos :=
  Clock.wholeMillis (moment + if t.isCut limit moment then limit.getD 0 else t.span.getD 0)

end Try

/-- The record of a call. -/
structure TryLog where
  /-- the moments at which the inner store was called, in order -/
  calls : List Nanos
  /-- the waits that were asked for, in order -/
  waits : List Nanos
deriving DecidableEq

namespace TryLog

def addCall (log : TryLog) (moment : Nanos) : TryLog :=
  { log with calls := log.calls ++ [moment] }

def addWait (log : TryLog) (span : Nanos) : TryLog := { log with waits := log.waits ++ [span] }

end TryLog

/-- A store whose calls go as laid down. Each is noted with its moment. -/
def rehearsedStore (tries : (c : StoreCall) → Nat → Try c.Reply) : Store (Timed TryLog) :=
  fun c => do
    let k ← get
    set { k with world := k.world.addCall k.now }
    let t := tries c k.world.calls.length
    match t.span with
    | some span => do
      Timed.sleep span
      pure t.outcome
    | none => Timed.never

/-- The surroundings of retried calls on the clock. Each wait is noted. -/
def notedSurroundings : RetrySurroundings (Timed TryLog) :=
  { Timed.surroundings with
    pause := fun span => do
      modify fun k => { k with world := k.world.addWait span }
      Timed.surroundings.pause span }

/-- A call with retries, and all that it will meet. -/
structure Rehearsal where
  policy : RetryPolicy
  call : StoreCall
  /-- how its tries go, by their number -/
  tries : (c : StoreCall) → Nat → Try c.Reply
  /-- when it is called -/
  start : Nanos
  /-- the stop signal, if there is one -/
  signal : Option StopSignal
  /-- what its owner does with it, and when -/
  deeds : List (Nanos × SignalDeed)

namespace Rehearsal

variable (R : Rehearsal)

/-- What comes of it on the clock. -/
def run : Option (Except Fault R.call.Reply) × Clock TryLog :=
  Timed.runFor ⟨R.start, R.signal, [], [], ⟨[], []⟩⟩ (R.deeds.map SignalDeed.event) none
    (R.policy.store notedSurroundings (rehearsedStore R.tries) R.call)

/-! ### What is to be expected -/

def attempt (i : Nat) : Try R.call.Reply := R.tries R.call i

/-- The moment at which try number `i` begins. -/
def beginning : Nat → Nanos
  | 0 => R.start
  | i + 1 =>
    Clock.wholeMillis ((R.attempt i).ending R.policy.callTimeout (beginning i) + R.policy.delay i)

/-- The moment at which it is over. -/
def ending (i : Nat) : Nanos := (R.attempt i).ending R.policy.callTimeout (R.beginning i)

/-- What the loop makes of it. -/
def seen (i : Nat) : Except Fault R.call.Reply :=
  if (R.attempt i).isCut R.policy.callTimeout (R.beginning i) then
    .error (R.policy.tooLong R.call.word)
  else (R.attempt i).outcome

/-- Whether it succeeded or failed for good. -/
def isDecisive (i : Nat) : Bool := settles (R.seen i)

/-- Whether the signal is on at a moment. -/
def onAt (t : Nanos) : Bool := isOnAt R.signal R.deeds t

/-- Whether the signal forbids another try after try number `i`: it is on when the wait would
start, or comes strictly before its end. -/
def isForbidden (i : Nat) : Bool :=
  R.onAt (R.ending i) || isOnBefore R.signal R.deeds (R.beginning (i + 1))

/-- Whether no try follows number `i`, whatever the policy allows. -/
def isLast (i : Nat) : Bool := R.isDecisive i || R.isForbidden i

/-- Whether the outcome of try number `i` is handed on, if it is the last one. -/
def isFinal (i : Nat) : Bool := R.isDecisive i || i = R.policy.maxRetries

/-- What the caller is told if try number `i` is the last one. -/
def reply (i : Nat) : Except Fault R.call.Reply :=
  if R.isFinal i then R.seen i else .error .cancelled

/-- The wait that the signal broke off, if try number `i` is the last one. -/
def brokenWait (i : Nat) : List Nanos :=
  if R.isFinal i || R.onAt (R.ending i) then [] else [R.policy.delay i]

/-! ### The signal on the way -/

/-- The clock on the way: the moment, the record so far, and a signal that is yet to become
what was laid down. -/
structure Reaches (moment : Nanos) (log : TryLog) (k : Clock TryLog) : Prop where
  now : k.now = moment
  deadlines : k.deadlines = []
  world : k.world = log
  signal : ∃ ahead : List (Nanos × SignalDeed), k.events = ahead.map SignalDeed.event ∧
    ∀ t, moment ≤ t → isOnAt k.signal ahead t = R.onAt t

variable {R} {moment : Nanos} {log : TryLog} {k : Clock TryLog}

theorem Reaches.moveTo (h : R.Reaches moment log k) {t : Nanos} (hle : moment ≤ t) :
    R.Reaches t log (k.moveTo t) ∧ (k.moveTo t).signal.any (·.on) = R.onAt t := by
  obtain ⟨ahead, hevents, hon⟩ := h.signal
  have hmax : max k.now t = t := by rw [h.now]; exact Nat.max_eq_right hle
  have hlater : (k.moveTo t).events =
      (ahead.filter fun d => !decide (d.1 ≤ t)).map SignalDeed.event := by
    rw [Clock.events_moveTo, hmax, hevents]
    exact SignalDeed.filter_event (fun m => !decide (m ≤ t)) ahead
  have hsignal : (k.moveTo t).signal = k.signal.map fun s =>
      ((ahead.filter fun d => decide (d.1 ≤ t)).map SignalDeed.event).foldl
        (fun s e => e.2 s) s := by
    rw [Clock.signal_moveTo, hmax, hevents,
      ← SignalDeed.filter_event (fun m => decide (m ≤ t)) ahead]
  refine ⟨⟨hmax, h.deadlines, h.world, _, hlater, ?_⟩, ?_⟩
  · intro t' ht
    rw [hsignal, isOnAt_of_due _ _ ht]
    exact hon t' (Nat.le_trans hle ht)
  · rw [← hon t hle, ← isOnAt_of_due _ _ (Nat.le_refl t), ← hsignal, isOnAt_rest]

/-- A wait that starts with the signal off is broken off if the signal comes strictly before
its end. -/
theorem Reaches.stopBefore? (h : R.Reaches moment log k)
    (hoff : k.signal.any (·.on) = false) (hmoment : R.onAt moment = false) {target : Nanos}
    (hle : moment ≤ target) :
    (k.stopBefore? target).isSome = isOnBefore R.signal R.deeds target := by
  obtain ⟨ahead, hevents, hon⟩ := h.signal
  have hfind : (k.stopBefore? target).isSome = isOnBefore k.signal ahead target := by
    unfold Clock.stopBefore?
    cases hk : k.signal with
    | none => rfl
    | some s =>
      rw [hk] at hoff
      have hs : s.on = false := hoff
      simp only [hevents, Option.isSome_map, List.isSome_find?, List.any_map, isOnBefore,
        Option.any_some, hs, Bool.false_or]
      congr 1
      funext d
      simp only [SignalDeed.event, SignalDeed.on_change, hs, Bool.false_or, Function.comp_apply]
      rfl
  rw [hfind]
  rcases Nat.eq_or_lt_of_le hle with heq | hlt
  · -- nothing comes before a wait that is over at once
    subst heq
    have hahead := hon moment (Nat.le_refl moment)
    rw [hmoment] at hahead
    rw [Bool.eq_false_iff.mpr fun hb => Bool.eq_false_iff.mp hahead (isOnAt_of_isOnBefore hb),
      Bool.eq_false_iff.mpr fun hb => Bool.eq_false_iff.mp hmoment (isOnAt_of_isOnBefore hb)]
  · obtain ⟨t, rfl⟩ : ∃ t, target = t + 1 :=
      ⟨target - 1, (Nat.succ_pred (Nat.ne_zero_of_lt hlt)).symm⟩
    rw [isOnBefore_succ, isOnBefore_succ]
    exact hon t (Nat.le_of_lt_succ hlt)

/-- The clock after a call is noted. -/
def noted (k : Clock TryLog) : Clock TryLog := { k with world := k.world.addCall k.now }

theorem now_noted (k : Clock TryLog) : (noted k).now = k.now := rfl

theorem rehearsedStore_run (tries : (c : StoreCall) → Nat → Try c.Reply) (c : StoreCall)
    (k : Clock TryLog) :
    (rehearsedStore tries c).run.run k =
      (match (tries c k.world.calls.length).span with
        | some span => do
          Timed.sleep span
          pure (tries c k.world.calls.length).outcome
        | none => Timed.never : Timed TryLog (Except Fault c.Reply)).run.run (noted k) := by
  simp only [rehearsedStore, Timed.run_bind, Timed.run_get, Timed.run_set]
  rfl

/-- One try, with what is allowed of it. -/
theorem within_rehearsedStore (tries : (c : StoreCall) → Nat → Try c.Reply) (limit : Option Nanos)
    (c : StoreCall) {k : Clock TryLog} (hd : k.deadlines = [])
    (hends : limit = none → (tries c k.world.calls.length).span ≠ none) :
    (Timed.within limit (rehearsedStore tries c)).run.run k =
      (.ok (if (tries c k.world.calls.length).isCut limit k.now then none
          else some (tries c k.world.calls.length).outcome),
        (noted k).moveTo ((tries c k.world.calls.length).ending limit k.now)) := by
  cases limit with
  | none =>
    simp only [Timed.within, Timed.run_bind, rehearsedStore_run]
    cases hspan : (tries c k.world.calls.length).span with
    | none => exact absurd hspan (hends rfl)
    | some span =>
      simp only [Timed.run_bind, Timed.sleep_run, Timed.sleepUntil_run _ (k := noted k) hd,
        Timed.run_pure, Try.ending, hspan]
      rfl
  | some limit =>
    have hdeadline : (noted { k with
        deadlines := Clock.wholeMillis (k.now + limit) :: k.deadlines }).deadlines =
      [Clock.wholeMillis (k.now + limit)] := by rw [← hd]; rfl
    rw [Timed.within_run, rehearsedStore_run]
    dsimp only
    cases hspan : (tries c k.world.calls.length).span with
    | none =>
      rw [Timed.never_run hdeadline]
      simp only [Try.isCut, Try.ending, hspan]
      rfl
    | some span =>
      rw [Timed.run_bind, Timed.sleep_run, now_noted]
      by_cases hcut : Clock.wholeMillis (k.now + limit) < Clock.wholeMillis (k.now + span)
      · rw [Timed.sleepUntil_run_cut hdeadline hcut, Try.ending, Try.isCut_some hspan,
          decide_eq_true hcut]
        rfl
      · rw [Timed.sleepUntil_run_due hdeadline hcut, Try.ending, Try.isCut_some hspan,
          decide_eq_false hcut, hspan]
        rfl

theorem le_ending (i : Nat) : R.beginning i ≤ R.ending i :=
  Nat.le_trans (Nat.le_add_right _ _) (Clock.le_wholeMillis _)

theorem ending_le (i : Nat) : R.ending i ≤ R.beginning (i + 1) :=
  Nat.le_trans (Nat.le_add_right _ _) (Clock.le_wholeMillis _)

/-- Try number `i` is made, and leads to the moment at which it is over. -/
theorem Reaches.attempt {i : Nat} {waits : List Nanos}
    (hends : R.policy.callTimeout = none → (R.attempt i).span ≠ none)
    (h : R.Reaches (R.beginning i) ⟨(List.range i).map R.beginning, waits⟩ k) :
    ∃ o k', (notedSurroundings.within R.policy.callTimeout
        (rehearsedStore R.tries R.call)).run.run k = (.ok o, k') ∧
      o.getD (.error (R.policy.tooLong R.call.word)) = R.seen i ∧
      R.Reaches (R.ending i) ⟨(List.range (i + 1)).map R.beginning, waits⟩ k' ∧
      k'.signal.any (·.on) = R.onAt (R.ending i) := by
  have hnumber : k.world.calls.length = i := by rw [h.world, List.length_map, List.length_range]
  have hrun := within_rehearsedStore R.tries R.policy.callTimeout R.call h.deadlines
    (by rw [hnumber]; exact hends)
  rw [hnumber, h.now] at hrun
  refine ⟨_, _, hrun, ?_, ?_⟩
  · unfold seen
    show (if (R.attempt i).isCut _ _ then none else some (R.attempt i).outcome).getD _ = _
    split <;> rfl
  · have hnoted : R.Reaches (R.beginning i) ⟨(List.range (i + 1)).map R.beginning, waits⟩
        (noted k) := by
      refine ⟨h.now, h.deadlines, ?_, h.signal⟩
      show k.world.addCall k.now = _
      rw [h.world, h.now, List.range_succ, List.map_append]
      rfl
    exact hnoted.moveTo (le_ending i)

theorem isStopping_run (k : Clock TryLog) :
    notedSurroundings.isStopping.run.run k = (.ok (k.signal.any (·.on)), k) := by
  rcases k with ⟨now, signal, events, deadlines, log⟩
  cases signal <;> rfl

/-- The wait after try number `i`, with the signal off at its start. -/
theorem Reaches.pause {i : Nat} {calls waits : List Nanos}
    (h : R.Reaches (R.ending i) ⟨calls, waits⟩ k) (hoff : k.signal.any (·.on) = false)
    (hmoment : R.onAt (R.ending i) = false) :
    ∃ k', (notedSurroundings.pause (R.policy.delay i)).run.run k =
        (.ok (isOnBefore R.signal R.deeds (R.beginning (i + 1))), k') ∧
      k'.world = ⟨calls, waits ++ [R.policy.delay i]⟩ ∧
      (isOnBefore R.signal R.deeds (R.beginning (i + 1)) = false →
        R.Reaches (R.beginning (i + 1)) ⟨calls, waits ++ [R.policy.delay i]⟩ k') := by
  have hnoted : R.Reaches (R.ending i) ⟨calls, waits ++ [R.policy.delay i]⟩
      { k with world := k.world.addWait (R.policy.delay i) } := by
    refine ⟨h.now, h.deadlines, ?_, h.signal⟩
    show k.world.addWait _ = _
    rw [h.world]
    rfl
  have htarget : Clock.wholeMillis (k.now + R.policy.delay i) = R.beginning (i + 1) := by
    rw [h.now]
    rfl
  have hstop := hnoted.stopBefore? hoff hmoment (ending_le i)
  have hrun : (notedSurroundings.pause (R.policy.delay i)).run.run k =
      (Timed.pause (R.policy.delay i)).run.run
        { k with world := k.world.addWait (R.policy.delay i) } := by
    simp only [notedSurroundings, Timed.run_bind, Timed.run_modify]
    rfl
  rw [hrun, Timed.pause_run _ hnoted.deadlines]
  dsimp only
  rw [htarget, ← hstop]
  cases Clock.stopBefore? _ (R.beginning (i + 1)) with
  | some moment => exact ⟨_, rfl, hnoted.world, fun hno => by simp at hno⟩
  | none => exact ⟨_, rfl, hnoted.world, fun _ => (hnoted.moveTo (ending_le i)).1⟩

/-- Whether the loop stops at try number `i` with the reply and the record that belong to it. -/
structure EndsAt (R : Rehearsal) (i : Nat) (result : Except Nat (Except Fault R.call.Reply))
    (k : Clock TryLog) : Prop where
  le_maxRetries : i ≤ R.policy.maxRetries
  last : i = R.policy.maxRetries ∨ R.isLast i = true
  result : result = .ok (R.reply i)
  world : k.world =
    ⟨(List.range (i + 1)).map R.beginning, (List.range i).map R.policy.delay ++ R.brokenWait i⟩

/-- A try whose outcome is handed on. -/
theorem EndsAt.of_isFinal {left attempt : Nat} (hleft : attempt + left = R.policy.maxRetries)
    (hfinal : R.isFinal attempt = true) {o : Option (Except Fault R.call.Reply)} {k' : Clock TryLog}
    (hrun : (notedSurroundings.within R.policy.callTimeout
      (rehearsedStore R.tries R.call)).run.run k = (.ok o, k'))
    (hseen : o.getD (.error (R.policy.tooLong R.call.word)) = R.seen attempt)
    (hworld : k'.world = ⟨(List.range (attempt + 1)).map R.beginning,
      (List.range attempt).map R.policy.delay⟩) :
    ∃ result k', (R.policy.tryFrom notedSurroundings R.call.word (rehearsedStore R.tries R.call)
        left attempt).run.run k = (result, k') ∧ R.EndsAt attempt result k' := by
  have hcases : R.isDecisive attempt = true ∨ attempt = R.policy.maxRetries := by
    simpa only [isFinal, Bool.or_eq_true, decide_eq_true_eq] using hfinal
  have hsettled : settles (R.seen attempt) = true ∨ left = 0 :=
    hcases.imp id fun heq => by omega
  refine ⟨_, _, RetryPolicy.tryFrom_run_settled _ _ _ _ _ _ hrun hseen hsettled,
    by omega, ?_, ?_, ?_⟩
  · rcases hcases with hdecisive | heq
    · exact .inr (by rw [isLast, hdecisive, Bool.true_or])
    · exact .inl heq
  · rw [reply, hfinal, if_pos rfl]
  · rw [hworld, brokenWait, hfinal, Bool.true_or, if_pos rfl, List.append_nil]

/-- A try that settles nothing, after which the signal forbids another. -/
theorem EndsAt.of_isForbidden {i : Nat} (hle : i ≤ R.policy.maxRetries)
    (hfinal : R.isFinal i = false) (hforbidden : R.isForbidden i = true)
    (hworld : k.world = ⟨(List.range (i + 1)).map R.beginning,
      (List.range i).map R.policy.delay ++ R.brokenWait i⟩) :
    R.EndsAt i (.ok (.error .cancelled)) k := by
  refine ⟨hle, .inr ?_, ?_, hworld⟩
  · rw [isLast, hforbidden, Bool.or_true]
  · rw [reply, hfinal]
    rfl

/-- From try number `attempt` on, the loop makes one try after another until the first one that
is the last. -/
theorem tryFrom_run (hends : R.policy.callTimeout = none → ∀ i, (R.attempt i).span ≠ none)
    (left attempt : Nat) (hleft : attempt + left = R.policy.maxRetries)
    (h : R.Reaches (R.beginning attempt)
      ⟨(List.range attempt).map R.beginning, (List.range attempt).map R.policy.delay⟩ k) :
    ∃ i result k', (∀ j, attempt ≤ j → j < i → R.isLast j = false) ∧
      (R.policy.tryFrom notedSurroundings R.call.word (rehearsedStore R.tries R.call) left
        attempt).run.run k = (result, k') ∧ R.EndsAt i result k' := by
  have hnone : ∀ j, attempt ≤ j → j < attempt → R.isLast j = false := fun j hj hlt => by omega
  induction left generalizing attempt k with
  | zero =>
    obtain ⟨o, k', hrun, hseen, hreach, -⟩ := h.attempt fun hnone => hends hnone attempt
    have hfinal : R.isFinal attempt = true := by simp [isFinal, ← hleft]
    obtain ⟨result, k'', hgoes, hend⟩ := EndsAt.of_isFinal hleft hfinal hrun hseen hreach.world
    exact ⟨attempt, result, k'', hnone, hgoes, hend⟩
  | succ left ih =>
    obtain ⟨o, k', hrun, hseen, hreach, hon⟩ := h.attempt fun hnone => hends hnone attempt
    cases hfinal : R.isFinal attempt with
    | true =>
      obtain ⟨result, k'', hgoes, hend⟩ := EndsAt.of_isFinal hleft hfinal hrun hseen hreach.world
      exact ⟨attempt, result, k'', hnone, hgoes, hend⟩
    | false =>
      obtain ⟨hdecisive, -⟩ : R.isDecisive attempt = false ∧ attempt ≠ R.policy.maxRetries := by
        simpa only [isFinal, Bool.or_eq_false_iff, decide_eq_false_iff_not] using hfinal
      rw [RetryPolicy.tryFrom_run_unsettled _ _ _ _ _ _ hrun hseen hdecisive, Timed.run_bind,
        isStopping_run]
      dsimp only
      cases hstart : R.onAt (R.ending attempt) with
      | true =>
        -- the signal is on when the wait would start
        have hforbidden : R.isForbidden attempt = true := by
          rw [isForbidden, hstart, Bool.true_or]
        rw [hon, hstart, if_pos rfl]
        refine ⟨attempt, _, k', hnone, rfl, .of_isForbidden (by omega) hfinal hforbidden ?_⟩
        rw [hreach.world, brokenWait, hstart, Bool.or_true, if_pos rfl, List.append_nil]
      | false =>
        have hoff : k'.signal.any (·.on) = false := hon.trans hstart
        obtain ⟨k'', hpause, hwaited, hnext⟩ := hreach.pause hoff hstart
        rw [hoff, if_neg Bool.false_ne_true, Timed.run_bind, hpause]
        dsimp only
        cases hcome : isOnBefore R.signal R.deeds (R.beginning (attempt + 1)) with
        | true =>
          -- it comes before the end of the wait
          have hforbidden : R.isForbidden attempt = true := by
            rw [isForbidden, hcome, Bool.or_true]
          rw [if_pos rfl]
          refine ⟨attempt, _, k'', hnone, rfl, .of_isForbidden (by omega) hfinal hforbidden ?_⟩
          rw [hwaited, brokenWait, hfinal, hstart]
          rfl
        | false =>
          have hgoesOn : R.isLast attempt = false := by
            rw [isLast, isForbidden, hdecisive, hstart, hcome]
            rfl
          have hlog : R.Reaches (R.beginning (attempt + 1))
              ⟨(List.range (attempt + 1)).map R.beginning,
                (List.range (attempt + 1)).map R.policy.delay⟩ k'' := by
            rw [List.range_succ, List.map_append, List.map_append, ← List.map_append,
              ← List.range_succ]
            exact hnext hcome
          obtain ⟨i, result, k₃, hbefore, hgoes, hend⟩ := ih (attempt + 1) (by omega) hlog
            fun j hj hlt => by omega
          refine ⟨i, result, k₃, fun j hj hlt => ?_, ?_, hend⟩
          · rcases Nat.eq_or_lt_of_le hj with rfl | hlt'
            · exact hgoesOn
            · exact hbefore j hlt' hlt
          · rw [if_neg Bool.false_ne_true]
            exact hgoes

end Rehearsal

end Telemetry
