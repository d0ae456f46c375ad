import Telemetry.Proofs.Postgres.Alone
import Telemetry.Proofs.Retry.Patient

/-!
# Merges that are tried again

A try may fail after its merge was committed, if the reply to the commit is lost. The fault is
one that is tried again, so the merge is made once more. A call with its retries therefore makes
the merge once for every reply that was lost and once more if it succeeds
(`merge_retried_applies`), which is at most once only if no such reply is lost, or a single one
and the call then fails.
-/

namespace Telemetry.Postgres

/-- What went wrong with the commits of merges among some statements, the latest first. -/
def commitsOf (mishap : List Statement → Statement → Option Database.Mishap) :
    List Statement → List (Option Database.Mishap)
  | [] => []
  | s :: earlier =>
    if s.isMerge (mishap earlier s) earlier.head? then mishap earlier s :: commitsOf mishap earlier
    else commitsOf mishap earlier

namespace Client

/-- The commits of merges that came through to the server, executed as they were. -/
def commits (c : Client) : List (Option Database.Mishap) :=
  commitsOf c.server.mishap c.server.received

theorem commits_after_of_uncounted {c : Client} {s : Statement} {d : Database}
    (h : s.isMerge (c.server.mishap c.server.received s) c.server.received.head? = false) :
    (c.after s d).commits = c.commits := by
  show commitsOf c.server.mishap (s :: c.server.received) = _
  unfold commitsOf
  rw [if_neg (by rw [h]; simp)]
  rfl

theorem commits_after_of_counted {c : Client} {s : Statement} {d : Database}
    (h : s.isMerge (c.server.mishap c.server.received s) c.server.received.head? = true) :
    (c.after s d).commits = c.server.mishap c.server.received s :: c.commits := by
  show commitsOf c.server.mishap (s :: c.server.received) = _
  unfold commitsOf
  rw [if_pos h]
  rfl

end Client

/-! ## One try -/

/-- What a try comes to: it fails and nothing happens; or the merge is committed as a whole,
and its results are returned unless the reply to the commit is lost. -/
inductive Tried (batch : List Metric) (c c' : Client) : Except Fault (List Metric) → Prop
  | failed (f : Fault) (rows : c'.rows = c.rows) (commits : c'.commits = c.commits) :
      Tried batch c c' (.error f)
  | told {merged : List Metric} (outcome : Merge.outcome c.rows batch = (.ok merged, c'.rows))
      (commits : c'.commits = none :: c.commits) : Tried batch c c' (.ok merged)
  | untold {merged : List Metric} (outcome : Merge.outcome c.rows batch = (.ok merged, c'.rows))
      (commits : c'.commits = some (.loss true) :: c.commits) :
      Tried batch c c' (.error lostCommit)

/-- A try that comes after a step that changed nothing. -/
theorem Tried.of_eq {batch : List Metric} {c c₁ c' : Client}
    {result : Except Fault (List Metric)} (h : Tried batch c₁ c' result)
    (hrows : c₁.rows = c.rows) (hcommits : c₁.commits = c.commits) : Tried batch c c' result := by
  cases h with
  | failed f rows commits => exact .failed f (rows.trans hrows) (commits.trans hcommits)
  | told outcome commits => exact .told (hrows ▸ outcome) (hcommits ▸ commits)
  | untold outcome commits => exact .untold (hrows ▸ outcome) (hcommits ▸ commits)

/-- To know that the tables are there is to change nothing. -/
theorem Tried.ready {batch : List Metric} {c c' : Client} {result : Except Fault (List Metric)}
    (h : Tried batch c c' result) (ready : Bool) :
    Tried batch c { c' with ready := ready } result := by
  cases h with
  | failed f rows commits => exact .failed f rows commits
  | told outcome commits => exact .told outcome commits
  | untold outcome commits => exact .untold outcome commits

namespace Client

/-- Giving up changes nothing. -/
theorem hold_abandon (f : Fault) (c : Client) :
    ∃ c', (hold (Merge.abandon f : Talk (Except Fault (List Metric)))).run c = (.error f, c') ∧
      c'.rows = c.rows ∧ c'.commits = c.commits := by
  rcases send_cases .rollback c with ⟨f', hsend⟩ | ⟨reply, d, hreply, hsend⟩
  · refine ⟨c, ?_, rfl, rfl⟩
    show (Except.error f, (send .rollback c).2) = _
    rw [hsend]
  · have hkept : Kept c.server.database d session [] _ c.server.received.head? .rollback
        (.done (.error f)) := step_rollback rfl hreply
    refine ⟨c.after .rollback d, ?_, hkept.rows, commits_after_of_uncounted hkept.uncounted⟩
    show (Except.error f, (send .rollback c).2) = _
    rw [hsend]

/-- A merge that is held from some stage to its end. -/
theorem tried_of_stage {batch : List Metric} (hbatch : batch ≠ [])
    {talk : Talk (Except Fault (List Metric))} {c : Client}
    (hstage : Stage c.server.database session batch c.server.received.head? talk) :
    Tried batch c ((hold talk).run c).2 ((hold talk).run c).1 := by
  induction talk generalizing c with
  | done result =>
    obtain ⟨f, rfl⟩ := hstage.error_of_done
    exact .failed f rfl rfl
  | ask s next ih =>
    rw [hold_ask]
    rcases send_cases s c with ⟨f, hsend⟩ | ⟨reply, d, hreply, hsend⟩
    · -- it did not come through, and the database knows nothing of it
      rw [hsend]
      exact ih _ (hstage.refuse f)
    · rw [hsend]
      rcases hstage.step hbatch hreply with hkept | ⟨merged, hpublished⟩
      · exact (ih reply (c := c.after s d) hkept.stage).of_eq hkept.rows
          (commits_after_of_uncounted hkept.uncounted)
      · have hcommits := commits_after_of_counted (d := d) hpublished.counted
        have houtcome : Merge.outcome c.rows batch = (.ok merged, (c.after s d).rows) := by
          unfold Merge.outcome Client.rows
          rw [hpublished.fold]
          show _ = (Except.ok merged, d.committed.rows)
          rw [hpublished.rows]
        -- the talk is over after a commit, or gives up without the reply to it
        rcases hpublished.outcome with ⟨hmishap, htalk⟩ | ⟨hmishap, htalk⟩
        · rw [hmishap] at hcommits
          show Tried batch c ((hold (next reply)).run (c.after s d)).2
            ((hold (next reply)).run (c.after s d)).1
          rw [htalk]
          exact .told houtcome hcommits
        · rw [hmishap] at hcommits
          obtain ⟨c', hrun, hrows, hcommits'⟩ := hold_abandon lostCommit (c.after s d)
          show Tried batch c ((hold (next reply)).run (c.after s d)).2
            ((hold (next reply)).run (c.after s d)).1
          rw [htalk, hrun]
          exact .untold (houtcome.trans (by rw [hrows])) (hcommits'.trans hcommits)

/-- One try of a call that asks the database. -/
theorem tried_answer {batch : List Metric} (hasks : withoutDatabase (.mergeMany batch) = none)
    (c : Client) :
    Tried batch c ((answer (.mergeMany batch)).run c).2 ((answer (.mergeMany batch)).run c).1 := by
  have hbatch := (MergeCall.withoutDatabase_eq_none_iff.mp hasks).2
  rw [answer_mergeMany_of_none hasks, prepared_run, ensureTables_run]
  by_cases hready : c.ready = true
  · rw [if_pos hready]
    have hquiet : (Talk.done (.ok ()) : Talk (Except Fault Unit)).Quiet false := trivial
    exact tried_of_stage hbatch (.preparing hquiet nofun)
  · rw [if_neg hready]
    have htried := tried_of_stage (c := c) hbatch
      (.preparing Migration.quiet_migrate nofun)
    rw [hold_bind] at htried
    rcases hmigrate : (hold Migration.migrate).run c with ⟨_ | _, c'⟩
    · rw [hmigrate] at htried
      exact htried
    · rw [hmigrate] at htried
      show Tried batch c ((hold (Merge.merge batch)).run { c' with ready := true }).2
        ((hold (Merge.merge batch)).run { c' with ready := true }).1
      rw [hold_ready]
      exact htried.ready true

end Client

/-! ## All tries -/

/-- What comes of a merge with all its tries: the merge was made once for each commit that came
through, the last time with the result that is returned if the call succeeds. -/
structure Retried (batch : List Metric) (c c' : Client) (result : Except Fault (List Metric))
    (made : List (Option Database.Mishap)) : Prop where
  commits : c'.commits = made ++ c.commits
  rows : c'.rows = (serialRun c.rows (List.replicate made.length batch)).2
  all_ok : ∀ r ∈ (serialRun c.rows (List.replicate made.length batch)).1, ∃ merged, r = .ok merged
  count : made.length =
    made.count (some (.loss true)) + if result.isOk ∧ batch ≠ [] then 1 else 0

namespace Retried

variable {batch : List Metric} {c c₁ c' : Client} {result : Except Fault (List Metric)}
  {made : List (Option Database.Mishap)}

/-- Tries that come to nothing. -/
theorem nothing (f : Fault) (hrows : c'.rows = c.rows) (hcommits : c'.commits = c.commits) :
    Retried batch c c' (.error f) [] where
  commits := hcommits
  rows := hrows
  all_ok := by
    intro r hr
    cases hr
  count := rfl

/-- A first try that came to nothing, and the others after it. -/
theorem of_eq (h : Retried batch c₁ c' result made) (hrows : c₁.rows = c.rows)
    (hcommits : c₁.commits = c.commits) : Retried batch c c' result made := by
  obtain ⟨commits, rows, hok, count⟩ := h
  rw [hrows] at rows hok
  rw [hcommits] at commits
  exact ⟨commits, rows, hok, count⟩

/-- A first try whose merge was made, and the others after it. -/
theorem cons (h : Retried batch c₁ c' result made) {merged : List Metric}
    (halone : mergeAlone c.rows batch = (.ok merged, c₁.rows))
    (hcommits : c₁.commits = some (.loss true) :: c.commits) :
    Retried batch c c' result (made ++ [some (.loss true)]) := by
  have hlength : (made ++ [some (Database.Mishap.loss true)]).length = made.length + 1 :=
    List.length_append ..
  have hserial : serialRun c.rows (List.replicate (made.length + 1) batch) =
      (.ok merged :: (serialRun c₁.rows (List.replicate made.length batch)).1,
        (serialRun c₁.rows (List.replicate made.length batch)).2) := by
    rw [List.replicate_succ]
    show ((mergeAlone c.rows batch).1 :: (serialRun (mergeAlone c.rows batch).2 _).1,
      (serialRun (mergeAlone c.rows batch).2 _).2) = _
    rw [halone]
  refine ⟨?_, ?_, ?_, ?_⟩
  · rw [h.commits, hcommits, List.append_assoc]
    rfl
  · rw [hlength, hserial]
    exact h.rows
  · rw [hlength, hserial]
    intro r hr
    rcases List.mem_cons.mp hr with rfl | hr
    · exact ⟨merged, rfl⟩
    · exact h.all_ok r hr
  · have hcount := h.count
    rw [hlength, List.count_append, List.count_singleton_self]
    omega

end Retried

/-- What a first try comes to: it fails, and what the others do comes after what it did; or it
succeeds, and it is the only one. -/
theorem first_try (batch : List Metric) (c : Client) :
    (∃ f c₁, (Client.answer (.mergeMany batch)).run c = (.error f, c₁) ∧
        ∀ c' result made, Retried batch c₁ c' result made →
          ∃ made', Retried batch c c' result made') ∨
      ∃ merged c₁, (Client.answer (.mergeMany batch)).run c = (.ok merged, c₁) ∧
        ∃ made, Retried batch c c₁ (.ok merged) made := by
  cases hasks : withoutDatabase (.mergeMany batch) with
  | some reply =>
    rw [Client.answer_mergeMany_of_some hasks]
    -- a batch that is refused, or an empty one
    rcases MergeCall.of_withoutDatabase hasks with ⟨f, rfl⟩ | ⟨rfl, rfl⟩
    · exact Or.inl ⟨f, c, rfl, fun _ _ made h => ⟨made, h⟩⟩
    · refine Or.inr ⟨[], c, rfl, [], rfl, rfl, ?_, rfl⟩
      intro r hr
      cases hr
  | none =>
    have hbatch := (MergeCall.withoutDatabase_eq_none_iff.mp hasks).2
    have halone : mergeAlone c.rows batch = Merge.outcome c.rows batch := by
      rw [mergeAlone_eq, hasks]
    have htried := Client.tried_answer hasks c
    rcases hrun : (Client.answer (.mergeMany batch)).run c with ⟨result, c₁⟩
    rw [hrun] at htried
    cases htried with
    | failed f hrows hcommits =>
      exact Or.inl ⟨f, c₁, rfl, fun _ _ made h => ⟨made, h.of_eq hrows hcommits⟩⟩
    | untold houtcome hcommits =>
      exact Or.inl ⟨lostCommit, c₁, rfl,
        fun _ _ made h => ⟨_, h.cons (halone.trans houtcome) hcommits⟩⟩
    | @told merged houtcome hcommits =>
      have hserial : serialRun c.rows [batch] = ([.ok merged], c₁.rows) := by
        show ([(mergeAlone c.rows batch).1], (mergeAlone c.rows batch).2) = _
        rw [halone, houtcome]
      refine Or.inr ⟨merged, c₁, rfl, [none], hcommits, ?_, ?_, ?_⟩
      · show _ = (serialRun c.rows [batch]).2
        rw [hserial]
      · show ∀ r ∈ (serialRun c.rows [batch]).1, _
        rw [hserial]
        intro r hr
        exact ⟨merged, List.mem_singleton.mp hr⟩
      · simp [Except.isOk, Except.toBool, hbatch]

theorem retried_tryFrom (p : RetryPolicy) (stopping : Client → Bool)
    (stopped : Nanos → Client → Bool) (operation : String) (batch : List Metric)
    (left attempt : Nat) (c : Client) :
    let r := (p.tryFrom (.patient stopping stopped) operation (Client.answer (.mergeMany batch))
      left attempt).run c
    ∃ made, Retried batch c r.2 r.1 made := by
  induction left generalizing attempt c with
  | zero =>
    rw [RetryPolicy.tryFrom_run]
    rcases first_try batch c with ⟨f, c₁, hrun, hrest⟩ | ⟨merged, c₁, hrun, hmade⟩
    · rw [hrun]
      dsimp only
      split <;> exact hrest _ _ _ (.nothing f rfl rfl)
    · rw [hrun]
      exact hmade
  | succ left ih =>
    rw [RetryPolicy.tryFrom_run]
    rcases first_try batch c with ⟨f, c₁, hrun, hrest⟩ | ⟨merged, c₁, hrun, hmade⟩
    · rw [hrun]
      dsimp only
      split
      · -- a fault that is not tried again
        exact hrest _ _ _ (.nothing f rfl rfl)
      · -- the stop signal may come before the pause or in it
        split
        · exact hrest _ _ _ (.nothing .cancelled rfl rfl)
        · split
          · exact hrest _ _ _ (.nothing .cancelled rfl rfl)
          · obtain ⟨made, hmade⟩ := ih (attempt + 1) c₁
            exact hrest _ _ made hmade
    · rw [hrun]
      exact hmade

/-- **How often a merge is made that is tried again.** Whatever goes wrong with whichever
statements, a call makes the merge of its batch once for each commit that came through, and
that is once for each such commit whose reply was lost, and once more if the call succeeds. So
it is made at most once, and just once by a call that succeeds, exactly if no such reply was
lost or only one was and the call did not succeed. Each counter has the increments of the batch
as often as the merge was made. -/
theorem merge_retried_applies (p : RetryPolicy) (stopping : Client → Bool)
    (stopped : Nanos → Client → Bool) (batch : List Metric) (c : Client) :
    let r := (p.store (.patient stopping stopped) Client.answer (.mergeMany batch)).run c
    ∃ made : List (Option Database.Mishap),
      r.2.commits = made ++ c.commits ∧
      r.2.rows = (serialRun c.rows (List.replicate made.length batch)).2 ∧
      (∀ name m, metricAt r.2.rows name = some m → m.kind = .counter →
        m.delta = some (sumFrom (((metricAt c.rows name).bind (·.delta)).getD 0)
          (occurrences (List.replicate made.length batch).flatten name))) ∧
      (made.length ≤ 1 ∧ (r.1.isOk → batch ≠ [] → made.length = 1) ↔
        made.count (some (.loss true)) = 0 ∨
          (made.count (some (.loss true)) = 1 ∧ (r.1.isOk → batch = []))) := by
  intro r
  obtain ⟨made, h⟩ : ∃ made, Retried batch c r.2 r.1 made :=
    retried_tryFrom p stopping stopped (StoreCall.mergeMany batch).word batch p.maxRetries 0 c
  refine ⟨made, h.commits, h.rows, ?_, ?_⟩
  · rw [h.rows]
    exact fun name m hm hkind => delta_serialRun h.all_ok hm hkind
  · have hcount := h.count
    by_cases hok : r.1.isOk ∧ batch ≠ []
    · rw [if_pos hok] at hcount
      constructor
      · intro h
        exact Or.inl (by omega)
      · rintro (h0 | ⟨-, hempty⟩)
        · exact ⟨by omega, fun _ _ => by omega⟩
        · exact absurd (hempty hok.1) hok.2
    · rw [if_neg hok] at hcount
      rw [not_and, not_not] at hok
      have hnever : r.1.isOk → batch ≠ [] → made.length = 1 := fun h hne => absurd (hok h) hne
      constructor
      · rintro ⟨hle, -⟩
        rcases Nat.le_one_iff_eq_zero_or_eq_one.mp hle with h0 | h1
        · exact Or.inl (by omega)
        · exact Or.inr ⟨by omega, hok⟩
      · intro h
        exact ⟨by omega, hnever⟩

/-- The reply to the commit of a merge is lost, and the merge is made a second time: ten hits
and five more are twenty. -/
theorem merge_retried_twice :
    let p : RetryPolicy := ⟨1, 0, ⟨0x3ff0000000000000⟩, 0, none⟩
    let batch : List Metric := [.counter "hits" 5]
    let c : Client := .ofServer
      ⟨true, .ofTables ⟨some [("hits", .ofMetric (.counter "hits" 10))], some [1]⟩, [],
        fun received s =>
          if s = .commit ∧ received.count .commit = 1 then some (.loss true) else none⟩
    let r := (p.store (.patient (fun _ => false) fun _ _ => false) Client.answer
      (.mergeMany batch)).run c
    r.1 = .ok [.counter "hits" 20] ∧ metricAt c.rows "hits" = some (.counter "hits" 10) ∧
      metricAt r.2.rows "hits" = some (.counter "hits" 20) := by
  decide +kernel

end Telemetry.Postgres
