import Telemetry.Proofs.Postgres.Alone
import Telemetry.Proofs.Postgres.Quiet
import Telemetry.Proofs.Postgres.Upgrade
import Telemetry.Proofs.Store.Failover

/-!
# A database that is out of reach at times

A client of a database that can be reached at some moments and not at others brings the tables up to
date with the first call that comes through, be it a mere question whether the database can be
reached. That makes tables, but it shows in no row. What a call makes of the rows depends on the rows
alone, whoever has made the tables (`Client.ignoresPings_during`). So a failover between such a
database and a memory makes two histories of the calls, as it does over any two stores
(`Failover.two_histories`).
-/

namespace Telemetry

namespace Postgres

/-! ## Talks over tables that are there -/

/-- **What a call makes of the rows depends on the rows alone**, and so does its reply. -/
theorem talk_runs (call : StoreCall) (rows : List (String × Row)) :
    ∃ reply rows', ∀ versions : List Nat,
      (talk call).Runs Client.session (.ofTables ⟨some rows, some versions⟩) reply
        (.ofTables ⟨some rows', some versions⟩) := by
  cases call with
  | get name => exact ⟨_, rows, fun versions => .ask rfl (.done _ _)⟩
  | getMany names => exact ⟨_, rows, fun versions => .ask rfl (.done _ _)⟩
  | list => exact ⟨_, rows, fun versions => .ask rfl (.done _ _)⟩
  | ping => exact ⟨_, rows, fun versions => .ask rfl (.done _ _)⟩
  | update m => exact ⟨_, putRow m.name (.ofMetric m) rows, fun versions => .ask rfl (.done _ _)⟩
  | create m =>
    by_cases htaken : rows.any (·.1 = m.name) = true
    · exact ⟨_, rows, fun versions => .ask (if_pos htaken) (.done _ _)⟩
    · exact ⟨_, putRow m.name (.ofMetric m) rows,
        fun versions => .ask (if_neg htaken) (.done _ _)⟩
  | updateMany ms =>
    refine ⟨.ok (), putAll rows ms, fun versions => .ask (Database.begin_alone _) ?_⟩
    have hwrite := Merge.runs_write (t := ⟨some rows, some versions⟩) rfl () ms [] []
    rw [List.nil_append, Tables.applyAll_ofMetric] at hwrite
    exact hwrite
  | mergeMany batch =>
    exact ⟨_, _, fun versions => Merge.runs_merge rows versions batch⟩

/-- Tables are brought up to date with the rows that there are, if the table of metrics is missing
only where it has not been recorded. -/
theorem Migration.runs_migrate_of_recorded {t : Tables} (h : t.metrics = none → t.latest = 0) :
    ∃ versions, migrate.Runs Client.session (.ofTables t) (.ok ())
      (.ofTables ⟨some t.rows, some versions⟩) := by
  by_cases hzero : t.latest = 0
  · -- the table of metrics is made if it is not there, and that is recorded
    have hpending : above t.latest = [(1, .createMetrics)] := by
      rw [hzero]
      rfl
    have hmetrics : (Database.busy t [.makeVersions] [.migrations]).execute Client.session
        .createMetrics = some (.done, .busy t [.makeVersions, .makeMetrics] [.migrations]) := rfl
    have hrecord : (Database.busy t [.makeVersions, .makeMetrics] [.migrations]).execute
        Client.session (.addVersion 1) =
          some (.done, .busy t [.makeVersions, .makeMetrics, .addVersion 1] [.migrations]) := rfl
    refine ⟨t.recorded ++ [1], runs_migrate_of_rest ?_⟩
    show (applyAll (above t.latest)).Runs _ _ _ _
    rw [hpending]
    exact .ask hmetrics (.ask hrecord (.ask Database.commit_alone (.done _ _)))
  · obtain ⟨rows, hrows⟩ : ∃ rows, t.metrics = some rows :=
      Option.ne_none_iff_exists'.mp fun hnone => hzero (h hnone)
    have hpending : above t.latest = [] := by
      unfold above migrations
      rw [List.filter_eq_nil_iff]
      intro m hm
      rw [List.mem_singleton.mp hm, decide_eq_true_eq]
      omega
    have hkept : t.applyAll [.makeVersions] = ⟨some t.rows, some t.recorded⟩ := by
      unfold Tables.rows
      rw [hrows]
      show (⟨t.metrics, some t.recorded⟩ : Tables) = _
      rw [hrows]
      rfl
    refine ⟨t.recorded, runs_migrate_of_rest ?_⟩
    show (applyAll (above t.latest)).Runs _ _ _ _
    rw [hpending, ← hkept]
    exact .ask Database.commit_alone (.done _ _)

namespace Client

/-! ## A client in order -/

/-- The store of a client whose server can be reached at a moment or not. -/
def during (reachable : Bool) : Store (StateM Client) := fun call c =>
  (answer call).run { c with server := { c.server with reachable := reachable } }

/-- Whether a client has a database to itself that is in order: nothing goes wrong there that can be
reached, no transaction is open, and the tables are there once they are known to be, and whenever
they are recorded. -/
structure InOrder (c : Client) : Prop where
  stillOpen : c.closed = false
  unharmed : ∀ received s, c.server.mishap received s = none
  database : ∃ t : Tables, c.server.database = .ofTables t ∧
    (t.metrics = none → t.latest = 0) ∧
      (c.ready = true → ∃ rows versions, t = ⟨some rows, some versions⟩)

variable {c : Client}

/-- The rows of a database whose tables are there. -/
theorem rows_of_tables {rows : List (String × Row)} {versions : List Nat}
    (hd : c.server.database = .ofTables ⟨some rows, some versions⟩) : c.rows = rows := by
  unfold Client.rows
  rw [hd]
  rfl

theorem inOrder_of_tables (hc : c.Faultless) {rows : List (String × Row)} {versions : List Nat}
    (hd : c.server.database = .ofTables ⟨some rows, some versions⟩) : c.InOrder :=
  ⟨hc.stillOpen, hc.unharmed, _, hd, nofun, fun _ => ⟨rows, versions, rfl⟩⟩

theorem answer_eq {call : StoreCall} (h : call ≠ .ping) :
    answer call =
      match withoutDatabase call with
      | some reply => pure reply
      | none => prepared (hold (talk call)) := by
  cases call with
  | ping => exact absurd rfl h
  | _ => rfl

/-! ## Out of reach -/

theorem send_of_unreachable (h : c.server.reachable = false) (s : Statement) :
    ∃ f, send s c = (.failed f, c) := by
  unfold send
  rw [h]
  split
  · exact ⟨_, rfl⟩
  · exact ⟨_, rfl⟩

theorem hold_of_unreachable {α : Type} (h : c.server.reachable = false) (t : Talk α) :
    ((hold t).run c).2 = c := by
  induction t with
  | done a => rfl
  | ask s next ih =>
    obtain ⟨f, hsend⟩ := send_of_unreachable h s
    rw [hold_ask, hsend]
    exact ih _

theorem migrate_of_unreachable (h : c.server.reachable = false) :
    ∃ f, (hold Migration.migrate).run c = (.error f, c) := by
  obtain ⟨f, hsend⟩ := send_of_unreachable h .begin
  unfold Migration.migrate
  rw [hold_ask, hsend]
  exact ⟨_, rfl⟩

/-- **Where nothing comes through, nothing changes.** -/
theorem answer_of_unreachable (h : c.server.reachable = false) (call : StoreCall) :
    ((answer call).run c).2 = c := by
  by_cases hcall : call = .ping
  · subst hcall
    obtain ⟨f, hsend⟩ := send_of_unreachable h .selectOne
    have hping : (hold (talk .ping)).run c = (.error (f.fault "ping"), c) := by
      show (hold (.ask .selectOne _)).run c = _
      rw [hold_ask, hsend]
      rfl
    show (ping.run c).2 = c
    unfold ping
    rw [run_bind_of_run hping]
    rfl
  · rw [answer_eq hcall]
    split
    · rfl
    · rw [prepared_run, ensureTables_run]
      by_cases hready : c.ready = true
      · rw [if_pos hready]
        exact hold_of_unreachable h _
      · obtain ⟨f, hmigrate⟩ := migrate_of_unreachable h
        rw [if_neg hready, hmigrate]

/-! ## In reach -/

/-- The tables are brought up to date with the rows that there are. -/
theorem ensureTables_of_inOrder (h : c.InOrder) (hreachable : c.server.reachable = true) :
    ∃ c' versions, ensureTables.run c = (.ok (), c') ∧ c'.Faultless ∧
      c'.server.database = .ofTables ⟨some c.rows, some versions⟩ := by
  have hc : c.Faultless := ⟨h.stillOpen, hreachable, h.unharmed⟩
  obtain ⟨t, hd, hrecorded, hthere⟩ := h.database
  have hrows : c.rows = t.rows := by
    unfold Client.rows
    rw [hd]
    rfl
  rw [ensureTables_run]
  by_cases hready : c.ready = true
  · obtain ⟨rows, versions, rfl⟩ := hthere hready
    rw [if_pos hready]
    exact ⟨c, versions, rfl, hc, hd.trans (by rw [hrows]; rfl)⟩
  · obtain ⟨versions, hruns⟩ := Migration.runs_migrate_of_recorded hrecorded
    obtain ⟨received, hmigrate⟩ := hold_of_runs hruns hd hc
    rw [if_neg hready, hmigrate]
    exact ⟨_, versions, rfl, ⟨h.stillOpen, hreachable, h.unharmed⟩, by rw [hrows]⟩

/-- A question whether the database can be reached leaves the client in order. -/
theorem inOrder_ping (h : c.InOrder) (hreachable : c.server.reachable = true) :
    ((answer .ping).run c).2.InOrder := by
  have hc : c.Faultless := ⟨h.stillOpen, hreachable, h.unharmed⟩
  have hruns : (talk .ping).Runs session c.server.database (.ok ()) c.server.database := by
    obtain ⟨t, hd, -⟩ := h.database
    rw [hd]
    exact .ask rfl (.done _ _)
  obtain ⟨received, hping⟩ := hold_of_runs hruns rfl hc
  have h' : InOrder { c with server := { c.server with received := received } } :=
    ⟨h.stillOpen, h.unharmed, h.database⟩
  obtain ⟨c', versions, htables, hc', hd⟩ := ensureTables_of_inOrder h' hreachable
  show (ping.run c).2.InOrder
  unfold ping
  rw [run_bind_of_run hping]
  show (ensureTables.run { c with server := { c.server with received := received } }).2.InOrder
  rw [htables]
  exact inOrder_of_tables hc' hd

/-- What a call makes of the rows is what its talk makes of them, if it comes to that. -/
theorem answer_of_inOrder (h : c.InOrder) (hreachable : c.server.reachable = true)
    {call : StoreCall} (hcall : call ≠ .ping) {reply : Except Fault call.Reply}
    {rows : List (String × Row)}
    (hruns : ∀ versions : List Nat, (talk call).Runs session
      (.ofTables ⟨some c.rows, some versions⟩) reply (.ofTables ⟨some rows, some versions⟩)) :
    ((answer call).run c).2.InOrder ∧
      ((answer call).run c).2.rows =
        if (withoutDatabase call).isSome then c.rows else rows := by
  rw [answer_eq hcall]
  cases hasks : withoutDatabase call with
  | some reply => exact ⟨h, rfl⟩
  | none =>
    obtain ⟨c', versions, htables, hc', hd⟩ := ensureTables_of_inOrder h hreachable
    obtain ⟨received, htalk⟩ := hold_of_runs (hruns versions) hd hc'
    dsimp only
    rw [prepared_run, htables]
    dsimp only
    rw [htalk]
    exact ⟨inOrder_of_tables ⟨hc'.stillOpen, hc'.reachable, hc'.unharmed⟩ rfl, rows_of_tables rfl⟩

/-- **A question whether the database can be reached is nothing to the rows.** It may make the
tables, but no call comes to other rows for that. -/
theorem ignoresPings_during : Failover.IgnoresPings during rows InOrder where
  ping := by
    intro reachable c h
    have h' : InOrder { c with server := { c.server with reachable := reachable } } :=
      ⟨h.stillOpen, h.unharmed, h.database⟩
    have hping : StoreCall.ping.writes = false := rfl
    refine ⟨?_, rows_answer hping { c with server := { c.server with reachable := reachable } }⟩
    cases reachable with
    | true => exact inOrder_ping h' rfl
    | false =>
      show ((answer .ping).run { c with server := { c.server with reachable := false } }).2.InOrder
      rw [answer_of_unreachable rfl]
      exact h'
  call := by
    intro reachable call hcall c₁ c₂ h₁ h₂ hrows
    have hready : ∀ {c : Client}, c.InOrder →
        InOrder { c with server := { c.server with reachable := reachable } } := fun h =>
      ⟨h.stillOpen, h.unharmed, h.database⟩
    have h₁ := hready h₁
    have h₂ := hready h₂
    cases reachable with
    | false =>
      have hkept : ∀ c : Client, ((during false call).run c).2 =
          { c with server := { c.server with reachable := false } } := fun c =>
        answer_of_unreachable rfl call
      rw [hkept, hkept]
      exact ⟨⟨h₁, h₂⟩, hrows⟩
    | true =>
      -- both have the same talk over the same rows
      obtain ⟨reply, rows', hruns⟩ := talk_runs call c₁.rows
      obtain ⟨hsound₁, hrows₁⟩ := answer_of_inOrder h₁ rfl hcall hruns
      rw [hrows] at hruns
      obtain ⟨hsound₂, hrows₂⟩ := answer_of_inOrder h₂ rfl hcall hruns
      refine ⟨⟨hsound₁, hsound₂⟩, hrows₁.trans (.trans ?_ hrows₂.symm)⟩
      show (if (withoutDatabase call).isSome then c₁.rows else rows') =
        if (withoutDatabase call).isSome then c₂.rows else rows'
      rw [hrows]

end Client

end Postgres

namespace Failover

/-! ## Two histories -/

variable {ε δ μ : Type}

/-- **Failover splits a run into two histories.** Whatever a durable store and a memory do when they
are asked, after any checks and calls from before the first check on:

* The store in use is the one that the latest check has chosen, the durable one if it said then that
  it can be reached and otherwise the memory, which is also in use before the first check.
* A further call is answered by the store in use as that store answers it, and leaves the other one
  alone. To ask whether the pair can be reached, and to check it, is to ask the durable store, and
  leaves the memory alone.
* The memory is as if only the calls that were routed to it had been made, in their order. The
  durable store is as if it had been asked what was routed to it and whether it can be reached, in
  their order; and what is seen of it is as if only the former had been made, unless what is seen
  depends on the questions.

Without a durable store all calls go to the memory, and the pair can never be reached. A database is
a durable store whose rows do not depend on the questions: they are left as they are by each,
whatever goes wrong on the way, and over a database that is out of reach at any moments they are as
if only the calls that were routed to it had been made. -/
theorem two_histories (durable : ε → Store (StateM δ)) (memory : ε → Store (StateM μ)) (d : δ)
    (m : μ) (acts : List (Act ε)) :
    (let pair := pairAt (some durable) memory
      let after := run pair (.memory, (d, m))
      let active : List (Act ε) → Backend := fun before => (after before).1
      let d' := (after acts).2.1
      let m' := (after acts).2.2
      ((∀ front moment back, acts = front ++ .check moment :: back →
            back.filterMap Act.checked? = [] →
          active acts =
            if ((durable moment .ping).run (after front).2.1).1.isOk then .durable else .memory) ∧
          (acts.filterMap Act.checked? = [] → active acts = .memory)) ∧
        ((∀ moment c, c ≠ .ping →
            ((pair moment).answer (active acts) c).run (d', m') =
              match active acts with
              | .durable => (((durable moment c).run d').1, (((durable moment c).run d').2, m'))
              | .memory => (((memory moment c).run m').1, (d', ((memory moment c).run m').2))) ∧
          ∀ moment,
            let asked := (durable moment .ping).run d'
            ((pair moment).answer (active acts) .ping).run (d', m') = (asked.1, (asked.2, m')) ∧
              (pair moment).check.run (d', m') =
                (if asked.1.isOk then .durable else .memory, (asked.2, m'))) ∧
        m' = replay memory m (routed active .memory acts) ∧
        d' = replay durable d (history active .durable [] acts) ∧
        ∀ {ν : Type} (view : δ → ν) (sound : δ → Prop), IgnoresPings durable view sound → sound d →
          view d' = view (replay durable d (routed active .durable acts))) ∧
    (let pair : ε → Failover (StateM (δ × μ)) := pairAt none memory
      let m' := replay memory m (acts.filterMap Act.operation?)
      run pair (.memory, (d, m)) acts = (.memory, (d, m')) ∧
        (∀ moment c, c ≠ .ping →
          ((pair moment).answer .memory c).run (d, m') =
            (((memory moment c).run m').1, (d, ((memory moment c).run m').2))) ∧
        ∀ moment,
          ((pair moment).answer .memory .ping).run (d, m') =
            (.error (.storageUnavailable "영구 저장소가 설정되지 않음"), (d, m')) ∧
          (pair moment).check.run (d, m') = (.memory, (d, m'))) ∧
    (∀ client : Postgres.Client,
      ((Postgres.Client.answer .ping).run client).2.rows = client.rows) ∧
    ∀ client : Postgres.Client, client.InOrder →
      ∀ (memory : Bool → Store (StateM μ)) (m : μ) (acts : List (Act Bool)),
        let after := run (pairAt (some Postgres.Client.during) memory) (.memory, (client, m))
        (after acts).2.1.rows =
          (replay Postgres.Client.during client
            (routed (fun before => (after before).1) .durable acts)).rows := by
  refine ⟨⟨⟨?_, run_of_unchecked _ _⟩, ⟨?_, ?_⟩, ?_, ?_, ?_⟩, ⟨run_alone acts d m, ?_, ?_⟩, ?_, ?_⟩
  · rintro front moment back rfl hback
    exact run_of_checked _ front moment hback
  · exact fun moment c hc => answer_active moment hc _ _ _
  · exact fun moment => ⟨answer_ping _ moment _ _, run_check moment _ _⟩
  · rw [routed_memory]
    exact congrArg Prod.snd (run_eq acts d m)
  · exact congrArg Prod.fst (run_eq acts d m)
  · exact fun view sound hview hd => view_run hview hd acts m
  · exact fun moment c hc => answer_memory moment none hc d _
  · exact fun moment => ⟨rfl, rfl⟩
  · exact Postgres.Client.rows_answer rfl
  · exact fun client hclient memory m acts =>
      view_run Postgres.Client.ignoresPings_during hclient acts m

/-- A database without tables is found, lost and found again, with a write before, between and after:
the first check has made the tables, and the rows are those of the two writes that were routed to
the database. -/
theorem two_histories_of_outage :
    let client : Postgres.Client := .ofServer ⟨true, .ofTables ⟨none, none⟩, [], fun _ _ => none⟩
    let acts : List (Act Bool) :=
      [.check true, .call true (.mergeMany [.counter "hits" 1]),
        .check false, .call false (.mergeMany [.counter "polls" 2]), .call false .ping,
        .check true, .call true (.mergeMany [.counter "hits" 3])]
    let after := run (pairAt (some Postgres.Client.during) fun _ => Table.answer)
      (.memory, (client, Table.empty)) acts
    IgnoresPings Postgres.Client.during Postgres.Client.rows Postgres.Client.InOrder ∧
      client.InOrder ∧ after.1 = .durable ∧
      after.2.1.rows = [("hits", .ofMetric (.counter "hits" 4))] ∧
      after.2.2 = ⟨[("polls", .counter "polls" 2)]⟩ := by
  intro client acts after
  have hclient : client.InOrder :=
    ⟨rfl, fun _ _ => rfl, ⟨none, none⟩, rfl, fun _ => rfl, nofun⟩
  obtain ⟨⟨⟨hactive, -⟩, -, hmemory, -, hseen⟩, -, -, -⟩ := two_histories Postgres.Client.during
    (fun _ => Table.answer) client Table.empty acts
  have hrows := hseen _ _ Postgres.Client.ignoresPings_during hclient
  refine ⟨Postgres.Client.ignoresPings_during, hclient,
    (hactive (acts.take 5) true (acts.drop 6) rfl rfl).trans ?_, hrows.trans ?_,
    hmemory.trans ?_⟩ <;> decide +kernel

end Failover

end Telemetry
