import Mathlib.Algebra.Group.Int.Defs
import Mathlib.Algebra.Group.Nat.Defs
import Mathlib.Data.List.Flatten
import Mathlib.Data.List.Induction
import Telemetry.Agent.Reporter
import Telemetry.Proofs.Agent.Jobs

/-!
# No poll is lost

Whatever the collector, the generator, the workers and the world outside do, every poll that was
recorded is pending, or carried by a job that is on its way, or was delivered, or went with a job
that was thrown away when the signal told the reporter to stop; and it is just one of these
(`Reporter.polls_conserved`).
-/

namespace Telemetry

/-- The job that a worker is sending. -/
def Worker.job? : Worker → Option Job
  | .sending job => some job
  | _ => none

/-- When a worker turns to something else, its job is exchanged, and all others stay. -/
theorem filterMap_set_perm {workers : List Worker} {i : Nat} {old : Worker}
    (h : workers[i]? = some old) (new : Worker) :
    (old.job?.toList ++ (workers.set i new).filterMap Worker.job?).Perm
      (new.job?.toList ++ workers.filterMap Worker.job?) := by
  have hcons : ∀ (w : Worker) (ws : List Worker),
      (w :: ws).filterMap Worker.job? = w.job?.toList ++ ws.filterMap Worker.job? := by
    intro w ws
    rw [List.filterMap_cons]
    cases w.job? <;> rfl
  induction workers generalizing i with
  | nil => cases h
  | cons w ws ih =>
    cases i with
    | zero =>
      cases h
      rw [List.set_cons_zero, hcons, hcons]
      exact List.perm_append_comm_assoc _ _ _
    | succ i =>
      rw [List.set_cons_succ, hcons, hcons]
      calc (old.job?.toList ++ (w.job?.toList ++ (ws.set i new).filterMap Worker.job?)).Perm
            (w.job?.toList ++ (old.job?.toList ++ (ws.set i new).filterMap Worker.job?)) :=
          List.perm_append_comm_assoc _ _ _
        _ |>.Perm (w.job?.toList ++ (new.job?.toList ++ ws.filterMap Worker.job?)) :=
          (ih h).append_left _
        _ |>.Perm (new.job?.toList ++ (w.job?.toList ++ ws.filterMap Worker.job?)) :=
          List.perm_append_comm_assoc _ _ _

/-- There is no overflow below the end of the range. -/
theorem toInt_add_of_lt {a b : Int64} (ha : 0 ≤ a.toInt) (hb : 0 ≤ b.toInt)
    (h : a.toInt + b.toInt < 2 ^ 63) : (a + b).toInt = a.toInt + b.toInt := by
  rw [Int64.toInt_add]
  exact Int.bmod_eq_of_le (by omega) (by omega)

/-- What is put back is pending again. -/
theorem PollLedger.toInt_restore {l : PollLedger} {polls : Int64} (hl : 0 ≤ l.pending.toInt)
    (hpolls : 0 ≤ polls.toInt) (h : l.pending.toInt + polls.toInt < 2 ^ 63) :
    (l.restore polls).pending.toInt = l.pending.toInt + polls.toInt := by
  unfold restore
  split
  next => exact toInt_add_of_lt hl hpolls h
  next hzero => rw [toInt_eq_zero_of_not_pos hpolls hzero, Int.add_zero]

namespace Reporter

/-! ## Where polls can be -/

/-- The jobs that are being sent. -/
def sending (r : Reporter) : List Job := r.workers.filterMap Worker.job?

/-- The jobs that are on their way: not in the queue yet, in the queue, or being sent. -/
def jobs (r : Reporter) : List Job := r.unqueued ++ (r.queue ++ r.sending)

/-- The polls that a reporter has in hand. -/
def held (r : Reporter) : Int := r.ledger.pending.toInt + carried r.jobs

theorem unqueued_of_waiting {r : Reporter} (h : r.generator = .waiting) : r.unqueued = [] := by
  unfold unqueued
  rw [h]

theorem unqueued_of_queueing {r : Reporter} {rest : List Job} (h : r.generator = .queueing rest) :
    r.unqueued = rest := by
  unfold unqueued
  rw [h]

theorem held_eq (r : Reporter) :
    r.held = r.ledger.pending.toInt + carried r.unqueued + carried r.queue + carried r.sending := by
  unfold held jobs
  rw [carried_append, carried_append]
  omega

/-- Whether the reporter was told to stop: the signal is on, or its owner has left. -/
def ToldToStop (r : Reporter) : Prop := r.signal.on = true ∨ r.signal.owned = false

namespace Deed

def delivered? : Deed → Option Job
  | .ended _ job outcome => if outcome.isSuccess then some job else none
  | _ => none

def discarded? : Deed → Option Job
  | .discarded job => some job
  | _ => none

def queued? : Deed → Option Job
  | .queued job => some job
  | _ => none

end Deed

/-- The jobs whose sends succeeded. -/
def delivered (deeds : List Deed) : List Job := deeds.filterMap Deed.delivered?

/-- The jobs that were thrown away. -/
def discarded (deeds : List Deed) : List Job := deeds.filterMap Deed.discarded?

/-- The jobs that were put into the queue. -/
def queued (deeds : List Deed) : List Job := deeds.filterMap Deed.queued?

@[simp]
theorem delivered_discard (jobs : List Job) (deeds : List Deed) :
    delivered (jobs.map .discarded ++ deeds) = delivered deeds := by
  unfold delivered
  rw [List.filterMap_append, List.filterMap_map]
  exact congrArg (· ++ _) (List.filterMap_eq_nil_iff.mpr fun _ _ => rfl)

@[simp]
theorem discarded_discard (jobs : List Job) (deeds : List Deed) :
    discarded (jobs.map .discarded ++ deeds) = jobs ++ discarded deeds := by
  unfold discarded
  rw [List.filterMap_append, List.filterMap_map]
  exact congrArg (· ++ _) List.filterMap_some

@[simp]
theorem queued_discard (jobs : List Job) (deeds : List Deed) :
    queued (jobs.map .discarded ++ deeds) = queued deeds := by
  unfold queued
  rw [List.filterMap_append, List.filterMap_map]
  exact congrArg (· ++ _) (List.filterMap_eq_nil_iff.mpr fun _ _ => rfl)

/-- Whether an event is a poll. -/
def Event.isPoll : Event → Bool
  | .poll => true
  | _ => false

/-! ## What holds all along -/

/-- What holds of a reporter between one event and the next. -/
structure Sound (r : Reporter) : Prop where
  takesPolls : r.takesPolls = true
  pending : 0 ≤ r.ledger.pending.toInt
  tellsOnce : ∀ j ∈ r.jobs, j.TellsOnce
  /-- a report tells polls at most once, in whichever of its jobs -/
  report : (r.unqueued.flatMap Job.pollMetrics).length ≤ 1
  workers : r.workers ≠ []
  /-- nobody leaves without being told -/
  leaves : r.generator = .ended ∨ .ended ∈ r.workers → r.ToldToStop
  news : r.signal.version ≠ r.listener.seen → r.signal.on = true

/-- What a step keeps that records some polls: they come to those in hand, and all others stay in
hand, are delivered or are thrown away. -/
structure Keeps (r : Reporter) (polls : Int) (r' : Reporter) (deeds : List Deed) : Prop where
  sound : r'.Sound
  balance : r'.held + carried (delivered deeds) + carried (discarded deeds) = r.held + polls
  gone : ∀ j ∈ delivered deeds ++ discarded deeds, j.TellsOnce
  put : ∀ j ∈ queued deeds, j.TellsOnce
  told : r.ToldToStop ∨ discarded deeds ≠ [] → r'.ToldToStop

/-- A step that only moves jobs: each stays on its way or is thrown away. -/
structure Moves (r r' : Reporter) (deeds : List Deed) : Prop where
  takesPolls : r'.takesPolls = r.takesPolls
  ledger : r'.ledger = r.ledger
  signal : r'.signal = r.signal
  listener : r'.listener = r.listener
  jobs : (r'.jobs ++ discarded deeds).Perm r.jobs
  unqueued : r'.unqueued.Sublist r.unqueued
  workers : r'.workers.length = r.workers.length
  delivered : delivered deeds = []
  queued : ∀ j ∈ queued deeds, j ∈ r.jobs
  leaves : r'.generator = .ended ∨ .ended ∈ r'.workers →
    (r.generator = .ended ∨ .ended ∈ r.workers) ∨ r.ToldToStop
  told : discarded deeds ≠ [] → r.ToldToStop

section Steps

variable {r r' : Reporter} {deeds : List Deed} {i : Nat} {job : Job}

theorem Moves.keeps (h : Moves r r' deeds) (hr : r.Sound) : Keeps r 0 r' deeds := by
  have honce : ∀ j ∈ r'.jobs ++ discarded deeds, j.TellsOnce :=
    fun j hj => hr.tellsOnce j (h.jobs.mem_iff.mp hj)
  have htold : r'.ToldToStop ↔ r.ToldToStop := by
    unfold ToldToStop
    rw [h.signal]
  refine ⟨⟨?_, ?_, ?_, ?_, ?_, ?_, ?_⟩, ?_, ?_, ?_, ?_⟩
  · exact h.takesPolls.trans hr.takesPolls
  · rw [h.ledger]
    exact hr.pending
  · exact fun j hj => honce j (List.mem_append_left _ hj)
  · exact Nat.le_trans (h.unqueued.flatMap _).length_le hr.report
  · intro hnil
    have hlength := h.workers
    rw [hnil] at hlength
    exact hr.workers (List.eq_nil_of_length_eq_zero hlength.symm)
  · intro hended
    refine htold.mpr ?_
    rcases h.leaves hended with hended | htold
    · exact hr.leaves hended
    · exact htold
  · rw [h.signal, h.listener]
    exact hr.news
  · have hcarried := carried_perm h.jobs
    rw [carried_append] at hcarried
    unfold held
    rw [h.ledger, h.delivered, ← hcarried]
    show _ + 0 + _ = _
    omega
  · rw [h.delivered]
    exact fun j hj => honce j (List.mem_append_right _ hj)
  · exact fun j hj => hr.tellsOnce j (h.queued j hj)
  · rintro (hon | hdiscarded)
    · exact htold.mpr hon
    · exact htold.mpr (h.told hdiscarded)

/-- What concerns neither jobs nor polls nor the signal changes nothing here. -/
theorem moves_of_eq (htakes : r'.takesPolls = r.takesPolls) (hledger : r'.ledger = r.ledger)
    (hsignal : r'.signal = r.signal) (hlistener : r'.listener = r.listener)
    (hunqueued : r'.unqueued = r.unqueued) (hqueue : r'.queue = r.queue)
    (hworkers : r'.workers = r.workers) (hended : r'.generator = .ended → r.generator = .ended) :
    Moves r r' [] := by
  have hjobs : r'.jobs = r.jobs := by
    unfold jobs sending
    rw [hunqueued, hqueue, hworkers]
  refine ⟨htakes, hledger, hsignal, hlistener, ?_, ?_, ?_, rfl,
    fun _ hj => absurd hj List.not_mem_nil, ?_, fun h => absurd rfl h⟩
  · rw [hjobs]
    exact .of_eq (List.append_nil _)
  · rw [hunqueued]
  · rw [hworkers]
  · rw [hworkers]
    exact fun hleft => Or.inl (hleft.imp_left hended)

theorem keeps_still (h : r.Sound) : Keeps r 0 r [] :=
  (moves_of_eq rfl rfl rfl rfl rfl rfl rfl id).keeps h

/-- The generator leaves, and what it has not put into the queue is thrown away. -/
theorem moves_leaveWith (htold : r.ToldToStop) {rest : List Job} (hrest : r.unqueued = rest) :
    Moves r (r.leaveWith rest).1 (r.leaveWith rest).2 := by
  unfold leaveWith
  refine ⟨rfl, rfl, rfl, rfl, ?_, List.nil_sublist _, rfl, delivered_discard _ _, ?_,
    fun _ => Or.inr htold, fun _ => htold⟩
  · rw [discarded_discard, ← hrest]
    show ((r.queue ++ r.sending) ++ (r.unqueued ++ [])).Perm r.jobs
    rw [List.append_nil]
    exact List.perm_append_comm
  · rw [queued_discard]
    exact fun _ hj => absurd hj List.not_mem_nil

/-- A worker leaves that waits for a job. With the last one, the queue is thrown away. -/
theorem moves_retire (htold : r.ToldToStop) (hidle : r.workers[i]? = some .idle) :
    Moves r (r.retire i).1 (r.retire i).2 := by
  have hsending : ((r.workers.set i .ended).filterMap Worker.job?).Perm r.sending :=
    filterMap_set_perm hidle .ended
  unfold retire
  dsimp only
  split
  next =>
    rw [← List.append_nil (r.queue.map Deed.discarded)]
    refine ⟨rfl, rfl, rfl, rfl, ?_, .refl _, List.length_set, delivered_discard _ _, ?_,
      fun _ => Or.inr htold, fun _ => htold⟩
    · rw [discarded_discard]
      show ((r.unqueued ++ (r.workers.set i .ended).filterMap Worker.job?) ++
        (r.queue ++ [])).Perm r.jobs
      rw [List.append_nil, List.append_assoc]
      exact (List.perm_append_comm.trans (hsending.append_left _)).append_left _
    · rw [queued_discard]
      exact fun _ hj => absurd hj List.not_mem_nil
  next =>
    refine ⟨rfl, rfl, rfl, rfl, ?_, .refl _, List.length_set, rfl,
      fun _ hj => absurd hj List.not_mem_nil, fun _ => Or.inr htold, fun _ => htold⟩
    show ((r.unqueued ++ (r.queue ++ (r.workers.set i .ended).filterMap Worker.job?)) ++ []).Perm
      r.jobs
    rw [List.append_nil]
    exact (hsending.append_left _).append_left _

/-- A worker gets a job, and sends it or leaves. -/
theorem moves_take (hidle : r.workers[i]? = some .idle) {rest : List Job}
    (hqueue : r.queue = job :: rest) : Moves r (r.take i job rest).1 (r.take i job rest).2 := by
  have hjobs : (job :: (r.unqueued ++ (rest ++ r.sending))).Perm r.jobs := by
    unfold jobs
    rw [hqueue]
    exact List.perm_middle.symm
  unfold take
  dsimp only
  split
  next hon =>
    -- the job that it got is thrown away, and it may be the last to leave
    have hretire : Moves { r with queue := rest } (retire { r with queue := rest } i).1
        (retire { r with queue := rest } i).2 := moves_retire (Or.inl hon) hidle
    refine ⟨hretire.takesPolls, hretire.ledger, hretire.signal, hretire.listener, ?_,
      hretire.unqueued, hretire.workers, hretire.delivered, ?_, fun _ => Or.inr (Or.inl hon),
      fun _ => Or.inl hon⟩
    · exact (List.perm_middle.trans (hretire.jobs.cons job)).trans hjobs
    · exact fun j hj => hjobs.subset (List.mem_cons_of_mem _ (hretire.queued j hj))
  next hoff =>
    have hsending : ((r.workers.set i (.sending job)).filterMap Worker.job?).Perm
        (job :: r.sending) := filterMap_set_perm hidle (.sending job)
    refine ⟨rfl, rfl, rfl, rfl, ?_, .refl _, List.length_set, rfl,
      fun _ hj => absurd hj List.not_mem_nil, ?_, fun h => absurd rfl h⟩
    · show ((r.unqueued ++ (rest ++ (r.workers.set i (.sending job)).filterMap Worker.job?)) ++
        []).Perm r.jobs
      rw [List.append_nil]
      refine List.Perm.trans ?_ hjobs
      exact (((hsending.append_left _).trans List.perm_middle).append_left _).trans
        List.perm_middle
    · rintro (hended | hended)
      · exact Or.inl (Or.inl hended)
      · rcases List.mem_or_eq_of_mem_set hended with hended | hended
        · exact Or.inl (Or.inr hended)
        · cases hended

/-- The generator puts a job into the queue. -/
theorem moves_enqueue {rest : List Job} (hrest : r.generator = .queueing (job :: rest)) :
    Moves r
      { r with
        queue := r.queue ++ [job]
        generator := if rest.isEmpty then .waiting else .queueing rest }
      [.queued job] := by
  have hunqueued : r.unqueued = job :: rest := unqueued_of_queueing hrest
  have hrest' : ∀ q, unqueued
      { r with queue := q, generator := if rest.isEmpty then .waiting else .queueing rest } =
        rest := by
    intro q
    cases rest <;> rfl
  refine ⟨rfl, rfl, rfl, rfl, ?_, ?_, rfl, rfl, ?_, ?_, fun h => absurd rfl h⟩
  · unfold jobs
    rw [hrest', hunqueued]
    show ((rest ++ ((r.queue ++ [job]) ++ r.sending)) ++ []).Perm _
    rw [List.append_nil, List.append_assoc, ← List.append_assoc]
    exact List.perm_middle.trans (by rw [List.append_assoc]; rfl)
  · rw [hrest', hunqueued]
    exact List.sublist_cons_self _ _
  · intro j hj
    cases List.mem_singleton.mp hj
    unfold jobs
    rw [hunqueued]
    exact List.mem_cons_self
  · rintro (hended | hended)
    · dsimp only at hended
      split at hended <;> cases hended
    · exact Or.inl (Or.inr hended)

/-- When a send ends, its job is no longer on its way. -/
theorem perm_conclude (hsending : r.workers[i]? = some (.sending job)) (outcome : SendOutcome) :
    (job :: (r.conclude i job outcome).1.jobs).Perm r.jobs := by
  have hperm : (job :: (r.workers.set i .idle).filterMap Worker.job?).Perm r.sending :=
    filterMap_set_perm hsending .idle
  exact List.perm_middle.symm.trans
    ((List.perm_middle.symm.trans (hperm.append_left _)).append_left _)

/-- The polls of a send that fails are pending again. -/
theorem pending_conclude (h : r.Sound) (hsending : r.workers[i]? = some (.sending job))
    (hheld : r.held < 2 ^ 63) (outcome : SendOutcome) :
    (r.conclude i job outcome).1.ledger.pending.toInt =
      r.ledger.pending.toInt + if outcome.isSuccess then 0 else job.polls.toInt := by
  have hjobs := perm_conclude hsending outcome
  have honce : ∀ j ∈ job :: (r.conclude i job outcome).1.jobs, j.TellsOnce :=
    fun j hj => h.tellsOnce j (hjobs.mem_iff.mp hj)
  have hpolls := (honce job List.mem_cons_self).polls_nonneg
  have hrest := carried_nonneg fun j hj => honce j (List.mem_cons_of_mem _ hj)
  have hcarried := carried_perm hjobs
  rw [carried_cons] at hcarried
  unfold held at hheld
  unfold conclude
  dsimp only
  rw [h.takesPolls]
  cases outcome.isSuccess with
  | true => exact (Int.add_zero _).symm
  | false => exact PollLedger.toInt_restore h.pending hpolls (by omega)

theorem delivered_ended (i : Nat) (job : Job) (outcome : SendOutcome) :
    delivered [.ended i job outcome] = if outcome.isSuccess then [job] else [] := by
  unfold delivered Deed.delivered?
  cases h : outcome.isSuccess <;> simp [h]

/-- A send ends. Its polls are delivered with it, or they are pending again. -/
theorem keeps_conclude (h : r.Sound) (hsending : r.workers[i]? = some (.sending job))
    (hheld : r.held < 2 ^ 63) (outcome : SendOutcome) :
    Keeps r 0 (r.conclude i job outcome).1 (r.conclude i job outcome).2 := by
  have hjobs := perm_conclude hsending outcome
  have honce : ∀ j ∈ job :: (r.conclude i job outcome).1.jobs, j.TellsOnce :=
    fun j hj => h.tellsOnce j (hjobs.mem_iff.mp hj)
  have hpolls := (honce job List.mem_cons_self).polls_nonneg
  have hpending := h.pending
  have hpending' := pending_conclude h hsending hheld outcome
  refine ⟨⟨h.takesPolls, ?_, ?_, h.report, ?_, ?_, h.news⟩, ?_, ?_, ?_, ?_⟩
  · rw [hpending']
    split <;> omega
  · exact fun j hj => honce j (List.mem_cons_of_mem _ hj)
  · intro hnil
    exact h.workers (List.eq_nil_of_length_eq_zero (List.length_set.symm.trans
      (congrArg List.length hnil)))
  · rintro (hended | hended)
    · exact h.leaves (Or.inl hended)
    · rcases List.mem_or_eq_of_mem_set hended with hended | hended
      · exact h.leaves (Or.inr hended)
      · cases hended
  · show (r.conclude i job outcome).1.held + carried (delivered [.ended i job outcome]) + 0 =
      r.held + 0
    have hcarried := carried_perm hjobs
    rw [carried_cons] at hcarried
    unfold held
    rw [hpending', delivered_ended]
    split
    · rw [show carried [job] = job.polls.toInt from Int.add_zero _]
      omega
    · rw [show carried [] = 0 from rfl]
      omega
  · show ∀ j ∈ delivered [.ended i job outcome] ++ [], j.TellsOnce
    rw [delivered_ended]
    intro j hj
    split at hj
    · rw [List.mem_singleton.mp hj]
      exact honce job List.mem_cons_self
    · cases hj
  · exact fun _ hj => absurd hj List.not_mem_nil
  · rintro (htold | hnone)
    · exact htold
    · exact absurd rfl hnone

/-- A poll is recorded. -/
theorem keeps_poll (h : r.Sound) (hheld : r.held + 1 < 2 ^ 63) :
    Keeps r 1 { r with ledger := r.ledger.record.1 } [.polled] := by
  have hjobs := carried_nonneg h.tellsOnce
  have hpending := h.pending
  have hrecord : (r.ledger.record.1).pending.toInt = r.ledger.pending.toInt + 1 := by
    unfold held at hheld
    exact toInt_add_of_lt hpending (by decide) (by rw [Int64.toInt_one]; omega)
  refine ⟨⟨h.takesPolls, ?_, h.tellsOnce, h.report, h.workers, h.leaves, h.news⟩, ?_, ?_, ?_, ?_⟩
  · show 0 ≤ (r.ledger.record.1).pending.toInt
    omega
  · show (r.ledger.record.1).pending.toInt + carried r.jobs + 0 + 0 = r.held + 1
    unfold held
    omega
  · exact fun _ hj => absurd hj List.not_mem_nil
  · exact fun _ hj => absurd hj List.not_mem_nil
  · rintro (htold | hnone)
    · exact htold
    · exact absurd rfl hnone

/-- The generator takes all polls that are pending for jobs that tell them. -/
theorem keeps_of_tells (h : r.Sound) (hnone : r.unqueued = []) {g : Generator} (hg : g ≠ .ended)
    (htells : Tells (unqueued { r with generator := g }) r.ledger.pending) :
    Keeps r 0 { r with ledger := ⟨0⟩, generator := g } [] := by
  obtain ⟨hcarried, honce⟩ := htells.carried h.pending
  refine ⟨⟨h.takesPolls, Int.le_of_eq Int64.toInt_zero.symm, ?_, htells.length_le, h.workers, ?_,
    h.news⟩, ?_, ?_, ?_, ?_⟩
  · intro j hj
    rcases List.mem_append.mp hj with hj | hj
    · exact honce j hj
    · exact h.tellsOnce j (List.mem_append_right _ hj)
  · exact fun hleft => h.leaves (hleft.imp_left fun hended => absurd hended hg)
  · show Int64.toInt 0 +
      carried (unqueued { r with generator := g } ++ (r.queue ++ r.sending)) + 0 + 0 = r.held + 0
    unfold held jobs
    rw [hnone, carried_append, hcarried, Int64.toInt_zero, List.nil_append]
    omega
  · exact fun _ hj => absurd hj List.not_mem_nil
  · exact fun _ hj => absurd hj List.not_mem_nil
  · rintro (htold | hnone)
    · exact htold
    · exact absurd rfl hnone

/-- A report takes all polls that are pending. -/
theorem keeps_tick (h : r.Sound) (hwaiting : r.generator = .waiting) : Keeps r 0 r.tick [] := by
  have hnone : r.unqueued = [] := unqueued_of_waiting hwaiting
  unfold tick
  split
  next => exact Moves.keeps (moves_of_eq rfl rfl rfl rfl rfl rfl rfl id) h
  next =>
    have hreport : r.report = (⟨0⟩, Report.withPolls r.snapshot r.ledger.pending) := by
      unfold report
      rw [h.takesPolls]
      rfl
    rw [hreport]
    dsimp only
    split
    next hempty =>
      -- there is nothing to report, and so nothing was pending
      refine keeps_of_tells h hnone (by simp) ?_
      have hfilter := Report.filter_withPolls r.snapshot r.ledger.pending
      rw [List.isEmpty_iff.mp hempty] at hfilter
      exact hfilter
    next => exact keeps_of_tells h hnone (by simp) (Report.tells_jobs _ _ _)

/-- There may be news of the signal. -/
theorem keeps_of_news (h : r.Sound) {signal : StopSignal}
    (htold : r.ToldToStop → signal.on = true ∨ signal.owned = false)
    (hnews : signal.version ≠ r.listener.seen → signal.on = true) :
    Keeps r 0 { r with signal := signal } [] := by
  refine ⟨⟨h.takesPolls, h.pending, h.tellsOnce, h.report, h.workers,
    fun hleft => htold (h.leaves hleft), hnews⟩, ?_, ?_, ?_, ?_⟩
  · show r.held + 0 + 0 = r.held + 0
    omega
  · exact fun _ hj => absurd hj List.not_mem_nil
  · exact fun _ hj => absurd hj List.not_mem_nil
  · rintro (hold | hnone)
    · exact htold hold
    · exact absurd rfl hnone

theorem Sound.told_of_hears (h : r.Sound) (hhears : r.hears = true) : r.ToldToStop := by
  have hchanged : r.signal.version ≠ r.listener.seen ∨ r.signal.owned = false := by
    simpa [hears, attention, Attention.hears, StopSignal.changed] using hhears
  exact hchanged.imp_left h.news

theorem Sound.told_of_workersEnded (h : r.Sound) (hended : r.workersEnded = true) :
    r.ToldToStop := by
  obtain ⟨w, ws, hworkers⟩ := List.exists_cons_of_ne_nil h.workers
  have hall := List.all_eq_true.mp hended w (by rw [hworkers]; exact List.mem_cons_self)
  exact h.leaves (Or.inr (by rw [hworkers, of_decide_eq_true hall]; exact List.mem_cons_self))

/-- The generator puts its next job into the queue, or leaves if no worker is left. -/
theorem keeps_enqueue (h : r.Sound) : Keeps r 0 (r.step .enqueue).1 (r.step .enqueue).2 := by
  unfold step
  dsimp only
  split
  next hrest =>
    refine Moves.keeps (moves_of_eq rfl rfl rfl rfl ?_ rfl rfl fun hended => ?_) h
    · exact (unqueued_of_queueing hrest).symm
    · cases hended
  next job rest hrest =>
    split
    next hended =>
      have htold := h.told_of_workersEnded hended
      exact (moves_leaveWith htold (unqueued_of_queueing hrest)).keeps h
    next =>
      split
      next => exact (moves_enqueue hrest).keeps h
      next => exact keeps_still h
  next => exact keeps_still h

/-- The generator hears that it is to stop, whatever it is about. -/
theorem keeps_leave (h : r.Sound) : Keeps r 0 (r.step .leave).1 (r.step .leave).2 := by
  unfold step
  dsimp only
  split
  next hhears hwaiting =>
    exact (moves_leaveWith (h.told_of_hears hhears) (unqueued_of_waiting hwaiting)).keeps h
  next rest hhears hrest =>
    exact (moves_leaveWith (h.told_of_hears hhears) (unqueued_of_queueing hrest)).keeps h
  next => exact keeps_still h

/-- A worker that waits hears that it is to stop, or finds that no job can come any more. -/
theorem keeps_retire (h : r.Sound) (worker : Nat) :
    Keeps r 0 (r.step (.retire worker)).1 (r.step (.retire worker)).2 := by
  unfold step
  dsimp only
  split
  next hretires =>
    simp only [Bool.and_eq_true, Bool.or_eq_true, decide_eq_true_eq] at hretires
    obtain ⟨hidle, hhears | ⟨hended, -⟩⟩ := hretires
    · exact (moves_retire (h.told_of_hears hhears) hidle).keeps h
    · exact (moves_retire (h.leaves (Or.inl hended)) hidle).keeps h
  next => exact keeps_still h

/-- **One step.** Whatever happens, the polls that are recorded come to those in hand. -/
theorem keeps_step (h : r.Sound) (e : Event) (hheld : r.held + e.isPoll.toNat < 2 ^ 63) :
    Keeps r e.isPoll.toNat (r.step e).1 (r.step e).2 := by
  cases e with
  | poll => exact keeps_poll h hheld
  | publish snapshot =>
    refine Moves.keeps ?_ h
    exact moves_of_eq rfl rfl rfl rfl rfl rfl rfl id
  | trigger =>
    have hon : r.signal.trigger.on = true := by
      unfold StopSignal.trigger
      split
      next hon => exact hon
      next => rfl
    exact keeps_of_news h (fun _ => Or.inl hon) (fun _ => hon)
  | abandon => exact keeps_of_news h (fun _ => Or.inr rfl) h.news
  | tick =>
    show Keeps r 0 (if r.generator = .waiting then r.tick else r) []
    split
    next hwaiting => exact keeps_tick h hwaiting
    next => exact keeps_still h
  | enqueue => exact keeps_enqueue h
  | leave => exact keeps_leave h
  | take worker =>
    unfold step
    dsimp only
    split
    next job rest hidle hqueue => exact (moves_take hidle hqueue).keeps h
    next => exact keeps_still h
  | retire worker => exact keeps_retire h worker
  | conclude worker outcome =>
    unfold step
    dsimp only
    split
    next job hsending => exact keeps_conclude h hsending (by simpa [Event.isPoll] using hheld) outcome
    next => exact keeps_still h
  | count =>
    unfold step
    dsimp only
    split
    next =>
      refine Moves.keeps ?_ h
      exact moves_of_eq rfl rfl rfl rfl rfl rfl rfl id
    next => exact keeps_still h

end Steps

/-! ## Runs -/

/-- One run after another keeps what both keep. -/
theorem Keeps.trans {r r' r'' : Reporter} {p p' : Int} {deeds deeds' : List Deed}
    (h : Keeps r p r' deeds) (h' : Keeps r' p' r'' deeds') :
    Keeps r (p + p') r'' (deeds ++ deeds') := by
  have hdelivered : delivered (deeds ++ deeds') = delivered deeds ++ delivered deeds' :=
    List.filterMap_append
  have hdiscarded : discarded (deeds ++ deeds') = discarded deeds ++ discarded deeds' :=
    List.filterMap_append
  have hqueued : queued (deeds ++ deeds') = queued deeds ++ queued deeds' :=
    List.filterMap_append
  refine ⟨h'.sound, ?_, ?_, ?_, ?_⟩
  · have hfirst := h.balance
    have hsecond := h'.balance
    rw [hdelivered, hdiscarded, carried_append, carried_append]
    omega
  · rw [hdelivered, hdiscarded]
    intro j hj
    rcases List.mem_append.mp hj with hj | hj <;> rcases List.mem_append.mp hj with hj | hj
    · exact h.gone j (List.mem_append_left _ hj)
    · exact h'.gone j (List.mem_append_left _ hj)
    · exact h.gone j (List.mem_append_right _ hj)
    · exact h'.gone j (List.mem_append_right _ hj)
  · rw [hqueued]
    exact fun j hj => (List.mem_append.mp hj).elim (h.put j) (h'.put j)
  · rw [hdiscarded]
    rintro (htold | hsome)
    · exact h'.told (Or.inl (h.told (Or.inl htold)))
    · by_cases hnone : discarded deeds = []
      · rw [hnone] at hsome
        exact h'.told (Or.inr hsome)
      · exact h'.told (Or.inl (h.told (Or.inr hnone)))

theorem run_concat (r : Reporter) (events : List Event) (e : Event) :
    r.run (events ++ [e]) =
      (((r.run events).1.step e).1, (r.run events).2 ++ ((r.run events).1.step e).2) := by
  unfold run
  rw [List.foldl_append]
  rfl

/-- **A whole run**, as long as the polls can be counted. -/
theorem keeps_run {r : Reporter} (h : r.Sound) (events : List Event)
    (hpolls : r.held + events.countP Event.isPoll < 2 ^ 63) :
    Keeps r (events.countP Event.isPoll) (r.run events).1 (r.run events).2 := by
  induction events using List.reverseRecOn with
  | nil => exact keeps_still h
  | append_singleton events e ih =>
    have hcount : (events ++ [e]).countP Event.isPoll =
        events.countP Event.isPoll + e.isPoll.toNat := by
      rw [List.countP_append, List.countP_singleton]
      cases e.isPoll <;> rfl
    rw [hcount, Int.natCast_add] at hpolls ⊢
    have hkeeps := ih (by omega)
    -- what is in hand so far is at most what was recorded
    have hdelivered := carried_nonneg fun j hj => hkeeps.gone j (List.mem_append_left _ hj)
    have hdiscarded := carried_nonneg fun j hj => hkeeps.gone j (List.mem_append_right _ hj)
    have hbalance := hkeeps.balance
    rw [run_concat]
    exact hkeeps.trans (keeps_step hkeeps.sound e (by omega))

/-- Nothing is on its way at the beginning. -/
theorem jobs_start (settings : ReporterSettings) (snapshot : List Metric) (signal : StopSignal) :
    (start settings .empty true snapshot signal signal.subscribe).jobs = [] := by
  have hsending : (List.replicate settings.workers Worker.idle).filterMap Worker.job? = [] :=
    List.filterMap_eq_nil_iff.mpr fun w hw => by rw [List.eq_of_mem_replicate hw]; rfl
  exact hsending

theorem held_start (settings : ReporterSettings) (snapshot : List Metric) (signal : StopSignal) :
    (start settings .empty true snapshot signal signal.subscribe).held = 0 := by
  unfold held
  rw [jobs_start]
  rfl

theorem sound_start {settings : ReporterSettings} (hworkers : 1 ≤ settings.workers)
    (snapshot : List Metric) (signal : StopSignal) :
    (start settings .empty true snapshot signal signal.subscribe).Sound := by
  refine ⟨rfl, Int.le_of_eq Int64.toInt_zero.symm, ?_, Nat.zero_le 1, ?_, ?_, ?_⟩
  · rw [jobs_start]
    exact fun _ hj => absurd hj List.not_mem_nil
  · intro hnil
    have hnone : List.replicate settings.workers Worker.idle = [] := hnil
    rw [List.replicate_eq_nil_iff] at hnone
    omega
  · rintro (hended | hended)
    · cases hended
    · cases List.eq_of_mem_replicate hended
  · exact fun hnews => absurd rfl hnews

/-- **No poll is counted twice or lost.** At every moment of every run, the polls recorded so far
are those that are pending, those that jobs carry that are not queued yet, queued or being sent,
those that were delivered, and those of jobs that were thrown away. No job is thrown away before
the reporter is told to stop. A report tells polls at most once, and then some; and a send that
fails puts its polls back while its job is no longer on its way. -/
theorem polls_conserved {settings : ReporterSettings} (hworkers : 1 ≤ settings.workers)
    (snapshot : List Metric) (signal : StopSignal) {events : List Event}
    (hpolls : events.countP Event.isPoll < 2 ^ 63) :
    let (r, deeds) :=
      (start settings .empty true snapshot signal signal.subscribe).run events
    (events.countP Event.isPoll : Int) =
        r.ledger.pending.toInt + carried r.unqueued + carried r.queue + carried r.sending +
          carried (delivered deeds) + carried (discarded deeds) ∧
      0 ≤ r.ledger.pending.toInt ∧
      (∀ j ∈ r.jobs ++ (queued deeds ++ (delivered deeds ++ discarded deeds)), j.TellsOnce) ∧
      (r.unqueued.flatMap Job.pollMetrics).length ≤ 1 ∧
      (discarded deeds ≠ [] → r.ToldToStop) ∧
      ∀ i job fault, r.workers[i]? = some (.sending job) →
        let r' := (r.step (.conclude i (.failed fault))).1
        r'.ledger.pending.toInt = r.ledger.pending.toInt + job.polls.toInt ∧
          (job :: r'.jobs).Perm r.jobs := by
  have hstart := held_start settings snapshot signal
  have hkeeps := keeps_run (sound_start hworkers snapshot signal) events (by omega)
  rcases hrun : (start settings .empty true snapshot signal signal.subscribe).run events with
    ⟨r, deeds⟩
  rw [hrun] at hkeeps
  dsimp only at hkeeps
  have hbalance := hkeeps.balance
  rw [hstart] at hbalance
  refine ⟨?_, hkeeps.sound.pending, ?_, hkeeps.sound.report, fun h => hkeeps.told (Or.inr h), ?_⟩
  · rw [← held_eq]
    omega
  · intro j hj
    rcases List.mem_append.mp hj with hj | hj
    · exact hkeeps.sound.tellsOnce j hj
    · exact (List.mem_append.mp hj).elim (hkeeps.put j) (hkeeps.gone j)
  · intro i job fault hsending
    have hstep : r.step (.conclude i (.failed fault)) = r.conclude i job (.failed fault) := by
      unfold step
      dsimp only
      rw [hsending]
    have hdelivered := carried_nonneg fun j hj => hkeeps.gone j (List.mem_append_left _ hj)
    have hdiscarded := carried_nonneg fun j hj => hkeeps.gone j (List.mem_append_right _ hj)
    dsimp only
    rw [hstep]
    exact ⟨pending_conclude hkeeps.sound hsending (by omega) _, perm_conclude hsending _⟩

/-- Two polls whose report fails while there is a third, and a fourth after the next report. -/
theorem polls_conserved_after_failure :
    let settings : ReporterSettings := ⟨1, 1, true, 1⟩
    let cpu : Metric := .gauge "cpu" ⟨0x4045000000000000⟩
    let events : List Event :=
      [.poll, .poll, .tick, .enqueue, .take 0, .poll, .conclude 0 (.failed .closed), .tick,
        .enqueue, .poll]
    let (r, deeds) := (start settings .empty true [cpu] .fresh StopSignal.fresh.subscribe).run events
    1 ≤ settings.workers ∧ events.countP Event.isPoll < 2 ^ 63 ∧
      r.ledger.pending = 1 ∧ r.queue = [.batch [cpu, .counter pollCountName 3]] ∧
      (4 : Int) = r.ledger.pending.toInt + carried r.unqueued + carried r.queue +
        carried r.sending + carried (delivered deeds) + carried (discarded deeds) := by
  intro settings cpu events
  have hworkers : 1 ≤ settings.workers := by decide
  have hpolls : events.countP Event.isPoll < 2 ^ 63 := by decide
  exact ⟨hworkers, hpolls, by decide +kernel, by decide +kernel,
    (polls_conserved hworkers [cpu] .fresh hpolls).1⟩

end Reporter

end Telemetry
