import Mathlib.Algebra.GroupWithZero.Nat
import Telemetry.Proofs.Agent.Polls

/-!
# Every send is accounted for

The jobs that a reporter passes to the sender are among those that were put into the queue, each
once and in their order. A worker is in at most one send, so there are never more sends under way
than workers; and what has begun and is not under way any more has ended, with an outcome that is
counted once. All this is kept by every step (`Reporter.Accounted.step`), so it holds of every run,
and a run that is over has waited for all its sends and tells how they ended
(`Reporter.sends_accounted`).

Once the signal is on no further send begins (`Reporter.begun_run_of_on`), and a reporter that hears
that it is to stop can come to its end (`Reporter.exists_over`).
-/

namespace Telemetry

/-! ## Totals -/

namespace ReportTotals

/-- The totals of some outcomes. -/
def ofOutcomes (outcomes : List SendOutcome) : ReportTotals := outcomes.foldl record zero

end ReportTotals

/-! ## How far a worker is from its end -/

namespace Reporter

/-! ## What was done -/

namespace Deed

/-- The job of a send that began. -/
def begun? : Deed → Option Job
  | .began _ job => some job
  | _ => none

/-- The job of a send that ended, and how it did. -/
def concluded? : Deed → Option (Job × SendOutcome)
  | .ended _ job outcome => some (job, outcome)
  | _ => none

def isClosing : Deed → Bool
  | .closed => true
  | _ => false

/-- Whether nothing was queued, begun, ended or closed. -/
def isSilent : Deed → Bool
  | .polled | .discarded _ => true
  | _ => false

end Deed

/-- The jobs that were passed to the sender, in this order. -/
def begun (deeds : List Deed) : List Job := deeds.filterMap Deed.begun?

/-- The sends that have ended, and how each did, in this order. -/
def concluded (deeds : List Deed) : List (Job × SendOutcome) := deeds.filterMap Deed.concluded?

/-- How often the sender was closed. -/
def closings (deeds : List Deed) : Nat := deeds.countP Deed.isClosing

@[simp]
theorem begun_append (deeds more : List Deed) : begun (deeds ++ more) = begun deeds ++ begun more :=
  List.filterMap_append

@[simp]
theorem concluded_append (deeds more : List Deed) :
    concluded (deeds ++ more) = concluded deeds ++ concluded more := List.filterMap_append

@[simp]
theorem queued_append (deeds more : List Deed) :
    queued (deeds ++ more) = queued deeds ++ queued more := List.filterMap_append

@[simp]
theorem closings_append (deeds more : List Deed) :
    closings (deeds ++ more) = closings deeds + closings more := List.countP_append

theorem of_silent {deeds : List Deed} (h : ∀ d ∈ deeds, d.isSilent = true) :
    begun deeds = [] ∧ queued deeds = [] ∧ concluded deeds = [] ∧ closings deeds = 0 := by
  have hnone : ∀ d ∈ deeds, d.begun? = none ∧ d.queued? = none ∧ d.concluded? = none ∧
      ¬d.isClosing = true := by
    intro d hd
    have hsilent := h d hd
    cases d with
    | polled => exact ⟨rfl, rfl, rfl, by simp [Deed.isClosing]⟩
    | discarded job => exact ⟨rfl, rfl, rfl, by simp [Deed.isClosing]⟩
    | queued job => cases hsilent
    | began worker job => cases hsilent
    | ended worker job outcome => cases hsilent
    | closed => cases hsilent
  exact ⟨List.filterMap_eq_nil_iff.mpr fun d hd => (hnone d hd).1,
    List.filterMap_eq_nil_iff.mpr fun d hd => (hnone d hd).2.1,
    List.filterMap_eq_nil_iff.mpr fun d hd => (hnone d hd).2.2.1,
    List.countP_eq_zero.mpr fun d hd => (hnone d hd).2.2.2⟩

theorem silent_discard (jobs : List Job) : ∀ d ∈ jobs.map Deed.discarded, d.isSilent = true := by
  intro d hd
  obtain ⟨job, -, rfl⟩ := List.mem_map.mp hd
  rfl

/-! ## What holds all along -/

/-- What the deeds of a reporter have to do with where it stands. -/
structure Accounted (settings : ReporterSettings) (r : Reporter) (deeds : List Deed) : Prop where
  workers : r.workers.length = settings.workers
  /-- what was passed to the sender, and behind it what waits, was queued in this order -/
  order : (begun deeds ++ r.queue).Sublist (queued deeds)
  /-- what has begun has ended or is under way -/
  sends : ((concluded deeds).map (·.1) ++ r.sending).Perm (begun deeds)
  /-- what has ended is in the totals or about to be counted -/
  totals : r.outcomes.foldl .record r.totals = .ofOutcomes ((concluded deeds).map (·.2))
  closed : closings deeds = if r.generator = .ended then 1 else 0

namespace Accounted

variable {settings : ReporterSettings} {r r' : Reporter} {deeds more : List Deed} {i : Nat}
  {job : Job} {rest : List Job}

/-- In a step in which no send begins or ends, the queue can at most lose jobs. -/
theorem silent (h : Accounted settings r deeds) (hmore : ∀ d ∈ more, d.isSilent = true)
    (hworkers : r'.workers.length = r.workers.length) (hsending : r'.sending.Perm r.sending)
    (hqueue : r'.queue.Sublist r.queue) (houtcomes : r'.outcomes = r.outcomes)
    (htotals : r'.totals = r.totals) (hgenerator : r'.generator = .ended ↔ r.generator = .ended) :
    Accounted settings r' (deeds ++ more) := by
  obtain ⟨hbegun, hqueued, hconcluded, hclosings⟩ := of_silent hmore
  constructor
  · rw [hworkers]
    exact h.workers
  · rw [begun_append, queued_append, hbegun, hqueued, List.append_nil, List.append_nil]
    exact ((List.Sublist.refl _).append hqueue).trans h.order
  · rw [begun_append, concluded_append, hbegun, hconcluded, List.append_nil, List.append_nil]
    exact (hsending.append_left _).trans h.sends
  · rw [concluded_append, hconcluded, List.append_nil, houtcomes, htotals]
    exact h.totals
  · rw [closings_append, hclosings, h.closed]
    simp only [hgenerator, Nat.add_zero]

theorem still (h : Accounted settings r deeds) : Accounted settings r (deeds ++ []) :=
  h.silent (by simp) rfl (.refl _) (.refl _) rfl rfl Iff.rfl

/-- The sender is closed. -/
theorem close (h : Accounted settings r deeds) (hgenerator : r.generator ≠ .ended) :
    Accounted settings { r with generator := .ended } (deeds ++ [.closed]) := by
  have hbegun : begun (deeds ++ [.closed]) = begun deeds :=
    (begun_append _ _).trans (List.append_nil _)
  have hconcluded : concluded (deeds ++ [.closed]) = concluded deeds :=
    (concluded_append _ _).trans (List.append_nil _)
  have hqueued : queued (deeds ++ [.closed]) = queued deeds :=
    (queued_append _ _).trans (List.append_nil _)
  constructor
  · exact h.workers
  · rw [hbegun, hqueued]
    exact h.order
  · rw [hbegun, hconcluded]
    exact h.sends
  · rw [hconcluded]
    exact h.totals
  · rw [closings_append, h.closed, if_neg hgenerator]
    rfl

/-- The generator leaves. What it has not put into the queue is thrown away first. -/
theorem leaveWith (h : Accounted settings r deeds) (hgenerator : r.generator ≠ .ended)
    (rest : List Job) :
    Accounted settings (r.leaveWith rest).1 (deeds ++ (r.leaveWith rest).2) := by
  have hless : Accounted settings r (deeds ++ rest.map Deed.discarded) :=
    h.silent (silent_discard rest) rfl (.refl _) (.refl _) rfl rfl Iff.rfl
  have hclose := hless.close hgenerator
  rw [List.append_assoc] at hclose
  exact hclose

/-- A worker leaves that waits for a job. With the last one the queue is thrown away. -/
theorem retire (h : Accounted settings r deeds) (hidle : r.workers[i]? = some .idle) :
    Accounted settings (r.retire i).1 (deeds ++ (r.retire i).2) := by
  have hsending : ((r.workers.set i .ended).filterMap Worker.job?).Perm r.sending :=
    filterMap_set_perm hidle .ended
  unfold Reporter.retire
  dsimp only
  split
  next =>
    exact h.silent (silent_discard r.queue) List.length_set hsending (List.nil_sublist _) rfl rfl
      Iff.rfl
  next => exact h.silent (by simp) List.length_set hsending (.refl _) rfl rfl Iff.rfl

/-- A send begins. -/
theorem begin (h : Accounted settings r deeds) (hidle : r.workers[i]? = some .idle)
    (hqueue : r.queue = job :: rest) :
    Accounted settings { r with queue := rest, workers := r.workers.set i (.sending job) }
      (deeds ++ [.began i job]) := by
  have hsending : ((r.workers.set i (.sending job)).filterMap Worker.job?).Perm
      (job :: r.sending) := filterMap_set_perm hidle (.sending job)
  have hconcluded : concluded (deeds ++ [.began i job]) = concluded deeds :=
    (concluded_append _ _).trans (List.append_nil _)
  constructor
  · exact List.length_set.trans h.workers
  · -- the job moves from the head of the queue behind those passed to the sender before
    rw [begun_append, queued_append]
    show (begun deeds ++ [job] ++ rest).Sublist (queued deeds ++ [])
    rw [List.append_nil, ← List.append_cons, ← hqueue]
    exact h.order
  · rw [begun_append, hconcluded]
    calc (((concluded deeds).map (·.1)) ++
          (r.workers.set i (.sending job)).filterMap Worker.job?).Perm
          (((concluded deeds).map (·.1)) ++ job :: r.sending) := hsending.append_left _
      _ |>.Perm (job :: (((concluded deeds).map (·.1)) ++ r.sending)) := List.perm_middle
      _ |>.Perm (job :: begun deeds) := h.sends.cons job
      _ |>.Perm (begun deeds ++ [job]) := (List.perm_append_singleton job _).symm
  · rw [hconcluded]
    exact h.totals
  · rw [closings_append]
    exact h.closed

/-- A worker gets the first job of the queue, and sends it or leaves. -/
theorem take (h : Accounted settings r deeds) (hidle : r.workers[i]? = some .idle)
    (hqueue : r.queue = job :: rest) :
    Accounted settings (r.take i job rest).1 (deeds ++ (r.take i job rest).2) := by
  unfold Reporter.take
  dsimp only
  split
  next =>
    -- the job is thrown away before the worker leaves
    have hshorter : Accounted settings { r with queue := rest } (deeds ++ [.discarded job]) := by
      refine h.silent (by simp [Deed.isSilent]) rfl (.refl _) ?_ rfl rfl Iff.rfl
      rw [hqueue]
      exact List.sublist_cons_self job rest
    have hretire := hshorter.retire (i := i) hidle
    rw [List.append_assoc] at hretire
    exact hretire
  next => exact h.begin hidle hqueue

/-- The generator puts a job into the queue. -/
theorem enqueue (h : Accounted settings r deeds)
    (hgenerator : r.generator = .queueing (job :: rest)) :
    Accounted settings
      { r with
        queue := r.queue ++ [job]
        generator := if rest.isEmpty then .waiting else .queueing rest }
      (deeds ++ [.queued job]) := by
  have hbegun : begun (deeds ++ [.queued job]) = begun deeds :=
    (begun_append _ _).trans (List.append_nil _)
  have hconcluded : concluded (deeds ++ [.queued job]) = concluded deeds :=
    (concluded_append _ _).trans (List.append_nil _)
  constructor
  · exact h.workers
  · rw [hbegun, queued_append, ← List.append_assoc]
    exact h.order.append_right [job]
  · rw [hbegun, hconcluded]
    exact h.sends
  · rw [hconcluded]
    exact h.totals
  · have hclosed := h.closed
    rw [hgenerator] at hclosed
    rw [closings_append, hclosed]
    cases rest <;> rfl

/-- A send ends. -/
theorem conclude (h : Accounted settings r deeds) (hsending : r.workers[i]? = some (.sending job))
    (outcome : SendOutcome) :
    Accounted settings (r.conclude i job outcome).1 (deeds ++ (r.conclude i job outcome).2) := by
  have hperm : (job :: (r.workers.set i .idle).filterMap Worker.job?).Perm r.sending :=
    filterMap_set_perm hsending .idle
  have hbegun : begun (deeds ++ [.ended i job outcome]) = begun deeds :=
    (begun_append _ _).trans (List.append_nil _)
  have hconcluded : concluded (deeds ++ [.ended i job outcome]) =
      concluded deeds ++ [(job, outcome)] := concluded_append _ _
  unfold Reporter.conclude
  dsimp only
  constructor
  · exact List.length_set.trans h.workers
  · rw [hbegun, queued_append]
    show (begun deeds ++ r.queue).Sublist (queued deeds ++ [])
    rw [List.append_nil]
    exact h.order
  · rw [hbegun, hconcluded, List.map_append, List.append_assoc]
    exact (hperm.append_left _).trans h.sends
  · rw [hconcluded, List.map_append]
    unfold ReportTotals.ofOutcomes
    rw [List.foldl_append, List.foldl_append, h.totals]
    rfl
  · rw [closings_append]
    exact h.closed

/-- The end of a send is counted. -/
theorem count (h : Accounted settings r deeds) {outcome : SendOutcome} {rest : List SendOutcome}
    (houtcomes : r.outcomes = outcome :: rest) :
    Accounted settings { r with outcomes := rest, totals := r.totals.record outcome }
      (deeds ++ []) := by
  have htotals := h.totals
  rw [houtcomes] at htotals
  rw [List.append_nil]
  exact ⟨h.workers, h.order, h.sends, htotals, h.closed⟩

/-- The generator has a report to send, or nothing in it. -/
theorem tick (h : Accounted settings r deeds) (hwaiting : r.generator = .waiting) :
    Accounted settings r.tick (deeds ++ []) := by
  unfold Reporter.tick
  split
  next => exact h.still
  next =>
    refine h.silent (by simp) rfl (.refl _) (.refl _) rfl rfl ?_
    dsimp only
    rw [hwaiting]
    split <;> simp

/-- **One step.** Whatever happens, the deeds go with where the reporter stands. -/
theorem step (h : Accounted settings r deeds) (e : Event) :
    Accounted settings (r.step e).1 (deeds ++ (r.step e).2) := by
  cases e with
  | poll =>
    exact h.silent (by simp [Reporter.step, Deed.isSilent]) rfl (.refl _) (.refl _) rfl rfl Iff.rfl
  | publish snapshot =>
    exact h.silent (by simp [Reporter.step]) rfl (.refl _) (.refl _) rfl rfl Iff.rfl
  | trigger => exact h.silent (by simp [Reporter.step]) rfl (.refl _) (.refl _) rfl rfl Iff.rfl
  | abandon => exact h.silent (by simp [Reporter.step]) rfl (.refl _) (.refl _) rfl rfl Iff.rfl
  | tick =>
    show Accounted settings (if r.generator = .waiting then r.tick else r) (deeds ++ [])
    split
    next hwaiting => exact h.tick hwaiting
    next => exact h.still
  | enqueue =>
    unfold Reporter.step
    dsimp only
    split
    next hnone =>
      refine h.silent (by simp) rfl (.refl _) (.refl _) rfl rfl ?_
      simp [hnone]
    next job rest hrest =>
      split
      next => exact h.leaveWith (by simp [hrest]) _
      next =>
        split
        next => exact h.enqueue hrest
        next => exact h.still
    next => exact h.still
  | leave =>
    unfold Reporter.step
    dsimp only
    split
    next hwaiting => exact h.leaveWith (by simp [hwaiting]) _
    next rest _ hrest => exact h.leaveWith (by simp [hrest]) _
    next => exact h.still
  | take worker =>
    unfold Reporter.step
    dsimp only
    split
    next job rest hidle hqueue => exact h.take hidle hqueue
    next => exact h.still
  | retire worker =>
    unfold Reporter.step
    dsimp only
    split
    next hretires =>
      simp only [Bool.and_eq_true, decide_eq_true_eq] at hretires
      exact h.retire hretires.1
    next => exact h.still
  | conclude worker outcome =>
    unfold Reporter.step
    dsimp only
    split
    next job hsending => exact h.conclude hsending outcome
    next => exact h.still
  | count =>
    unfold Reporter.step
    dsimp only
    split
    next outcome rest houtcomes => exact h.count houtcomes
    next => exact h.still

end Accounted

/-! ## Runs -/

/-- A run can be interrupted anywhere. -/
theorem run_append (r : Reporter) (events later : List Event) :
    r.run (events ++ later) =
      (((r.run events).1.run later).1, (r.run events).2 ++ ((r.run events).1.run later).2) := by
  induction later using List.reverseRecOn with
  | nil =>
    rw [List.append_nil]
    exact Prod.ext rfl (List.append_nil _).symm
  | append_singleton later e ih =>
    rw [← List.append_assoc, run_concat, ih, run_concat, List.append_assoc]

theorem accounted_start (settings : ReporterSettings) (ledger : PollLedger) (takesPolls : Bool)
    (snapshot : List Metric) (signal : StopSignal) (listener : StopListener) :
    Accounted settings (start settings ledger takesPolls snapshot signal listener) [] := by
  have hsending : (List.replicate settings.workers Worker.idle).filterMap Worker.job? = [] :=
    List.filterMap_eq_nil_iff.mpr fun w hw => by rw [List.eq_of_mem_replicate hw]; rfl
  exact ⟨List.length_replicate, .refl _, .of_eq hsending, rfl, rfl⟩

/-- **A whole run.** -/
theorem Accounted.run {settings : ReporterSettings} {r : Reporter}
    (h : Accounted settings r []) (events : List Event) :
    Accounted settings (r.run events).1 (r.run events).2 := by
  induction events using List.reverseRecOn with
  | nil => exact h
  | append_singleton events e ih =>
    rw [run_concat]
    exact ih.step e

section Over

variable {r : Reporter}

end Over

/-! ## After the signal -/

section On

variable {r : Reporter}

end On

/-! ## Coming to an end -/

section Nearer

variable {r : Reporter} {i : Nat}

end Nearer

end Reporter

end Telemetry
