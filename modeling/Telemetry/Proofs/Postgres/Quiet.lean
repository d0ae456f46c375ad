import Telemetry.Proofs.Postgres.Client
import Telemetry.Proofs.Store.Table

/-!
# Talks that write no metric

A talk that writes no metric, and commits only what it has begun itself, leaves the rows as they
are, whatever goes wrong (`Client.rows_hold`). Bringing the tables up to date is such a talk, and
so is every call that only reads (`Client.rows_answer`).
-/

namespace Telemetry

namespace Postgres

namespace Talk

variable {α : Type}

/-- Whether a talk writes no metric and commits nothing but what it has begun; `opened` tells
whether it has begun something. -/
def Quiet : Bool → Talk α → Prop
  | _, .done _ => True
  | opened, .ask s next =>
    s.isPut = false ∧ (s = .commit → opened = true) ∧ (∀ f, Quiet opened (next (.failed f))) ∧
      ∀ r, (∀ f, r ≠ .failed f) → Quiet (opened || s = .begin) (next r)

/-- A statement after which the talk goes on in one way unless it failed. -/
theorem quiet_ask {s : Statement} {onFailure : Failure → Talk α} {rest : Talk α} {opened : Bool}
    (hs : s.isPut = false) (hcommit : s = .commit → opened = true)
    (hfailure : ∀ f, (onFailure f).Quiet opened) (hrest : rest.Quiet (opened || s = .begin)) :
    (ask s fun
      | .failed f => onFailure f
      | _ => rest).Quiet opened := by
  refine ⟨hs, hcommit, hfailure, fun r hr => ?_⟩
  cases r
  case failed f => exact absurd rfl (hr f)
  all_goals exact hrest

/-- A single statement that neither writes a metric nor commits. -/
theorem quiet_single {s : Statement} {next : Reply → α} {opened : Bool} (hs : s.isPut = false)
    (hcommit : s ≠ .commit) : (ask s fun r => done (next r)).Quiet opened :=
  ⟨hs, fun h => absurd h hcommit, fun _ => trivial, fun _ _ => trivial⟩

end Talk

/-- A step of a quiet talk: it goes on quietly, and what it has begun still has written no
metric. -/
theorem Database.quiet_step {α : Type} {d d' : Database} {session : Nat}
    {mishap : Option Mishap} {s : Statement} {next : Reply → Talk α} {reply : Reply}
    {opened : Bool} (hquiet : (Talk.ask s next).Quiet opened)
    (hclean : opened = true → d.Clean session)
    (h : d.reply? session mishap s = some (reply, d')) :
    d'.committed.rows = d.committed.rows ∧
      ∃ opened', (next reply).Quiet opened' ∧ (opened' = true → d'.Clean session) := by
  obtain ⟨hs, hcommit, hfailed, hreplied⟩ := hquiet
  have hexec : ∀ {r d₁}, d.execute session s = some (r, d₁) →
      d₁.committed.rows = d.committed.rows :=
    rows_execute hs fun h => hclean (hcommit h)
  rcases reply?_cases h with ⟨-, hx⟩ | ⟨-, rfl, r, d₁, hx, rfl⟩ | ⟨-, -, ⟨f, rfl⟩, hfail⟩
  · refine ⟨hexec hx, ?_⟩
    -- only a statement that did not fail has begun a transaction
    by_cases hfailure : ∃ f, reply = .failed f
    · obtain ⟨f, rfl⟩ := hfailure
      exact ⟨opened, hfailed f, fun hopened => clean_execute hs (Or.inr (hclean hopened)) hx⟩
    · rw [not_exists] at hfailure
      refine ⟨_, hreplied reply hfailure, fun hopened => clean_execute hs ?_ hx⟩
      rcases Bool.or_eq_true_iff.mp hopened with hopened | hbegin
      · exact Or.inr (hclean hopened)
      · exact Or.inl (of_decide_eq_true hbegin)
  · -- executed, but the connection is lost, and the transaction with it
    have hrows := hexec hx
    exact ⟨hrows, opened, hfailed _, fun _ => clean_close d₁ session⟩
  · refine ⟨rows_of_failure hfail, opened, hfailed f, fun hopened => ?_⟩
    rcases hfail with rfl | rfl
    · exact (hclean hopened).spoil
    · exact clean_close d session

namespace Migration

theorem quiet_abandon {opened : Bool} (f : Failure) :
    (abandon f : Talk (Except Fault Unit)).Quiet opened :=
  Talk.quiet_single rfl (by simp)

theorem quiet_applyAll {ms : List (Nat × Statement)}
    (hms : ∀ m ∈ ms, m.2.isPut = false ∧ m.2 ≠ .commit) : (applyAll ms).Quiet true := by
  induction ms with
  | nil => exact Talk.quiet_ask rfl (fun _ => rfl) quiet_abandon trivial
  | cons m ms ih =>
    obtain ⟨version, statement⟩ := m
    obtain ⟨hput, hcommit⟩ := hms (version, statement) List.mem_cons_self
    refine Talk.quiet_ask hput (fun h => absurd h hcommit) quiet_abandon ?_
    refine Talk.quiet_ask rfl (by simp) quiet_abandon ?_
    exact ih fun m hm => hms m (List.mem_cons_of_mem _ hm)

/-- Bringing the tables up to date writes no metric. -/
theorem quiet_migrate : migrate.Quiet false := by
  refine Talk.quiet_ask rfl (by simp) (fun f => trivial) ?_
  refine Talk.quiet_ask rfl (by simp) quiet_abandon ?_
  refine Talk.quiet_ask rfl (by simp) quiet_abandon ?_
  refine ⟨rfl, by simp, quiet_abandon, fun r hr => ?_⟩
  cases r
  case failed f => exact absurd rfl (hr f)
  case version latest =>
    -- there is one migration, and it makes the table of metrics
    refine quiet_applyAll fun m hm => ?_
    have hm := List.mem_of_mem_filter hm
    rw [List.mem_singleton.mp hm]
    exact ⟨rfl, by simp⟩
  all_goals exact quiet_abandon _

end Migration

/-! ## Calls that only read -/

theorem quiet_readRows {α : Type} {s : Statement} (hs : s.isPut = false) (hcommit : s ≠ .commit)
    (operation : String) (go : List (String × Row) → Except Fault α) :
    (readRows operation s go).Quiet false :=
  ⟨hs, fun h => absurd h hcommit, fun _ => trivial, fun r _ => by cases r <;> trivial⟩

/-- The talk of a call that only reads. -/
theorem quiet_talk {c : StoreCall} (h : c.writes = false) : (talk c).Quiet false := by
  cases c, h using StoreCall.reading_cases with
  | get name => exact quiet_readRows rfl (by simp) _ _
  | getMany names => exact quiet_readRows rfl (by simp) _ _
  | list => exact quiet_readRows rfl (by simp) _ _
  | ping => exact ⟨rfl, by simp, fun _ => trivial, fun r _ => by cases r <;> trivial⟩

namespace Client

/-- A quiet talk leaves the rows as they are. -/
theorem rows_hold {α : Type} {t : Talk α} {opened : Bool} (h : t.Quiet opened) {c : Client}
    (hclean : opened = true → c.server.database.Clean session) :
    ((hold t).run c).2.rows = c.rows := by
  induction t generalizing opened c with
  | done a => rfl
  | ask s next ih =>
    rw [hold_ask]
    rcases send_cases s c with ⟨f, hsend⟩ | ⟨reply, d, hreply, hsend⟩
    · -- it did not come through
      rw [hsend]
      exact ih _ (h.2.2.1 f) hclean
    · rw [hsend]
      obtain ⟨hrows, opened', hquiet, hclean'⟩ := Database.quiet_step h hclean hreply
      exact (ih reply (c := c.after s d) hquiet hclean').trans hrows

theorem rows_ensureTables (c : Client) : (ensureTables.run c).2.rows = c.rows := by
  rw [ensureTables_run]
  split
  · rfl
  · have hrows := rows_hold (c := c) Migration.quiet_migrate nofun
    rcases hmigrate : (hold Migration.migrate).run c with ⟨_ | _, c'⟩
    · rw [hmigrate] at hrows
      exact hrows
    · rw [hmigrate] at hrows
      exact hrows

/-- A call that only reads leaves the rows as they are, whatever goes wrong. -/
theorem rows_answer {call : StoreCall} (h : call.writes = false) (c : Client) :
    ((answer call).run c).2.rows = c.rows := by
  have hprepared : ((prepared (hold (talk call))).run c).2.rows = c.rows := by
    rw [prepared_run]
    have hrows := rows_ensureTables c
    rcases htables : ensureTables.run c with ⟨_ | _, c'⟩
    · rw [htables] at hrows
      exact hrows
    · rw [htables] at hrows
      exact (rows_hold (c := c') (quiet_talk h) nofun).trans hrows
  cases call, h using StoreCall.reading_cases with
  | ping =>
    have hping := rows_hold (c := c) (quiet_talk (c := .ping) rfl) nofun
    show ((ping).run c).2.rows = c.rows
    simp only [ping, StateT.run_bind]
    -- a server that is reached has its tables brought up to date
    rcases hrun : (hold (talk .ping)).run c with ⟨_ | _, c'⟩
    · rw [hrun] at hping
      exact hping
    · rw [hrun] at hping
      exact (rows_ensureTables c').trans hping
  | get name => exact hprepared
  | getMany names =>
    cases names with
    | nil => rfl
    | cons name names => exact hprepared
  | list => exact hprepared

end Client

end Postgres

end Telemetry
