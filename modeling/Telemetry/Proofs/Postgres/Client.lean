import Telemetry.Postgres.Store
import Telemetry.Proofs.Postgres.Database

/-!
# What a client makes of a talk

A client asks the statements of a talk one after another. Each gets its reply from the database,
or does not come through and changes nothing (`Client.send_cases`).
-/

namespace Telemetry.Postgres.Client

/-- The rows that are committed. -/
def rows (c : Client) : List (String × Row) := c.server.database.committed.rows

/-- The client after one more statement has come through. -/
def after (c : Client) (s : Statement) (d : Database) : Client :=
  { c with server := { c.server with database := d, received := s :: c.server.received } }

/-- A statement gets its reply from the database, or does not come through. -/
theorem send_cases (s : Statement) (c : Client) :
    (∃ f, send s c = (.failed f, c)) ∨
      ∃ reply d, c.server.database.reply? session (c.server.mishap c.server.received s) s =
        some (reply, d) ∧ send s c = (reply, c.after s d) := by
  unfold send
  split
  · exact Or.inl ⟨_, rfl⟩
  · split
    · exact Or.inl ⟨_, rfl⟩
    · dsimp only
      split
      next => exact Or.inl ⟨_, rfl⟩
      next reply d hreply => exact Or.inr ⟨reply, d, hreply, rfl⟩

theorem hold_ask {α : Type} (s : Statement) (next : Reply → Talk α) (c : Client) :
    (hold (.ask s next)).run c = (hold (next (send s c).1)).run (send s c).2 := rfl

theorem hold_bind {α β : Type} (t : Talk α) (f : α → Talk β) (c : Client) :
    (hold (t.bind f)).run c = (hold (f ((hold t).run c).1)).run ((hold t).run c).2 := by
  induction t generalizing c with
  | done a => rfl
  | ask s next ih => exact ih (send s c).1 (send s c).2

/-- Whether the tables are known to be there does not matter to a statement. -/
theorem send_ready (s : Statement) (c : Client) (ready : Bool) :
    send s { c with ready := ready } = ((send s c).1, { (send s c).2 with ready := ready }) := by
  unfold send
  split
  · rfl
  · split
    · rfl
    · dsimp only
      split <;> rfl

theorem hold_ready {α : Type} (t : Talk α) (c : Client) (ready : Bool) :
    (hold t).run { c with ready := ready } =
      (((hold t).run c).1, { ((hold t).run c).2 with ready := ready }) := by
  induction t generalizing c with
  | done a => rfl
  | ask s next ih =>
    rw [hold_ask, send_ready, ih, hold_ask]

theorem ensureTables_run (c : Client) :
    ensureTables.run c =
      if c.ready then (.ok (), c)
      else
        match (hold Migration.migrate).run c with
        | (.error f, c') => (.error f, c')
        | (.ok (), c') => (.ok (), { c' with ready := true }) := by
  obtain ⟨server, ready, closed⟩ := c
  cases ready with
  | true => rfl
  | false =>
    simp only [ensureTables, StateT.run_bind, StateT.run_get, pure_bind, Bool.false_eq_true,
      if_false]
    rcases (hold Migration.migrate).run ⟨server, false, closed⟩ with ⟨_ | _, after⟩
    · rfl
    · rfl

/-- What is to be done on the tables comes after they were brought up to date. -/
theorem prepared_run {α : Type} (go : StateM Client (Except Fault α)) (c : Client) :
    (prepared go).run c =
      match ensureTables.run c with
      | (.error f, c') => (.error f, c')
      | (.ok (), c') => go.run c' := by
  simp only [prepared, StateT.run_bind]
  rcases ensureTables.run c with ⟨_ | _, after⟩
  · rfl
  · rfl

end Telemetry.Postgres.Client
