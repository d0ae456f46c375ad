import Telemetry.Postgres.Talk

/-!
# Migrations

Each migration has a version and a statement. Those above the latest recorded version
are made and recorded in one transaction, under a lock that keeps others from doing the
same.
-/

namespace Telemetry.Postgres.Migration

def operation : String := "마이그레이션"

/-- All migrations, by ascending version. -/
def migrations : List (Nat × Statement) := [(1, .createMetrics)]

/-- Gives the transaction up. -/
def abandon {α : Type} (f : Failure) : Talk (Except Fault α) :=
  .ask .rollback fun _ => .done (.error (f.fault operation))

/-- Ends the transaction. -/
def commit : Talk (Except Fault Unit) :=
  .ask .commit fun
    | .failed f => abandon f
    | _ => .done (.ok ())

/-- Makes and records some migrations, and commits. -/
def applyAll : List (Nat × Statement) → Talk (Except Fault Unit)
  | [] => commit
  | (version, statement) :: rest =>
    .ask statement fun
      | .failed f => abandon f
      | _ =>
        .ask (.addVersion version) fun
          | .failed f => abandon f
          | _ => applyAll rest

/-- The migrations above a version. -/
def above (latest : Nat) : List (Nat × Statement) := migrations.filter fun m => latest < m.1

/-- Brings the tables up to date. -/
def migrate : Talk (Except Fault Unit) :=
  .ask .begin fun
    | .failed f => .done (.error (f.fault operation))
    | _ =>
      .ask (.lock .migrations) fun
        | .failed f => abandon f
        | _ =>
          .ask .createVersions fun
            | .failed f => abandon f
            | _ =>
              .ask .latestVersion fun
                | .version latest => applyAll (above latest)
                | .failed f => abandon f
                | _ => abandon .rowNotFound

end Telemetry.Postgres.Migration
