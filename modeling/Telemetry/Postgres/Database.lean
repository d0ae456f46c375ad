import Telemetry.Postgres.Statement

/-!
# A database

Two tables, transactions on them and advisory locks. A transaction sees what was
committed before each of its statements together with its own changes; nobody else
sees those before it commits, and nobody ever does if it is rolled back. A lock belongs
to one transaction until that ends, and the same transaction may ask for it again. A
statement that has to wait for a lock gets no reply yet.

A statement that fails spoils its transaction: only its end is accepted after that.
-/

namespace Telemetry.Postgres

/-- What is stored. A table may not be there yet. -/
structure Tables where
  /-- rows by name, in the order of the names -/
  metrics : Option (List (String × Row))
  versions : Option (List Nat)
deriving DecidableEq

/-- Puts a row into its place, over what stood there. -/
def putRow (name : String) (r : Row) : List (String × Row) → List (String × Row)
  | [] => [(name, r)]
  | e :: rest =>
    if name < e.1 then (name, r) :: e :: rest
    else if name = e.1 then (name, r) :: rest
    else e :: putRow name r rest

inductive Change
  | makeVersions
  | makeMetrics
  | addVersion (version : Nat)
  | put (name : String) (row : Row)
deriving DecidableEq

def Tables.apply (t : Tables) : Change → Tables
  | .makeVersions => { t with versions := some (t.versions.getD []) }
  | .makeMetrics => { t with metrics := some (t.metrics.getD []) }
  | .addVersion v => { t with versions := t.versions.map (· ++ [v]) }
  | .put name row => { t with metrics := t.metrics.map (putRow name row) }

def Tables.applyAll (t : Tables) (changes : List Change) : Tables := changes.foldl Tables.apply t

structure Transaction where
  /-- its own changes, in order -/
  changes : List Change
  /-- whether a statement of it has failed -/
  spoilt : Bool
deriving DecidableEq

def Transaction.fresh : Transaction := ⟨[], false⟩

structure Database where
  committed : Tables
  /-- the open transactions by session -/
  transactions : List (Nat × Transaction)
  /-- who holds which lock -/
  locks : List (LockId × Nat)
deriving DecidableEq

namespace Database

def ofTables (t : Tables) : Database := ⟨t, [], []⟩

def transaction? (d : Database) (session : Nat) : Option Transaction :=
  d.transactions.lookup session

/-- The tables as a session sees them. -/
def view (d : Database) (session : Nat) : Tables :=
  match d.transaction? session with
  | some t => d.committed.applyAll t.changes
  | none => d.committed

/-- Ends the transaction of a session and frees its locks. -/
def close (d : Database) (session : Nat) : Database :=
  { d with
    transactions := d.transactions.filter fun e => e.1 ≠ session
    locks := d.locks.filter fun e => e.2 ≠ session }

def setTransaction (d : Database) (session : Nat) (t : Transaction) : Database :=
  { d with transactions := (session, t) :: d.transactions.filter fun e => e.1 ≠ session }

/-- Records a change in the transaction of a session, or at once if it has none. -/
def change (d : Database) (session : Nat) (c : Change) : Database :=
  match d.transaction? session with
  | some t => d.setTransaction session { t with changes := t.changes ++ [c] }
  | none => { d with committed := d.committed.apply c }

/-- A statement of a session fails. -/
def spoil (d : Database) (session : Nat) : Database :=
  match d.transaction? session with
  | some t => d.setTransaction session { t with spoilt := true }
  | none => d

/-- Whether a session gets a lock: nobody else holds it. -/
def grants (d : Database) (session : Nat) (id : LockId) : Bool :=
  d.locks.all fun e => e.1 ≠ id || e.2 = session

def missingTable (name : String) : Failure :=
  .reported (some "42P01") ("relation \"" ++ name ++ "\" does not exist")

def nameTaken : Failure :=
  .reported (some "23505") "duplicate key value violates unique constraint \"metrics_pkey\""

def transactionSpoilt : Failure :=
  .reported (some "25P02")
    "current transaction is aborted, commands ignored until end of transaction block"

/-- A statement fails. -/
def fail (d : Database) (session : Nat) (f : Failure) : Option (Reply × Database) :=
  some (.failed f, d.spoil session)

/-- A statement that needs the table of metrics. -/
def withMetrics (d : Database) (session : Nat)
    (go : List (String × Row) → Option (Reply × Database)) : Option (Reply × Database) :=
  match (d.view session).metrics with
  | none => d.fail session (missingTable "metrics")
  | some rows => go rows

/-- A statement that needs the table of versions. -/
def withVersions (d : Database) (session : Nat)
    (go : List Nat → Option (Reply × Database)) : Option (Reply × Database) :=
  match (d.view session).versions with
  | none => d.fail session (missingTable "schema_version")
  | some versions => go versions

/-- Ends a transaction and keeps its changes, unless it is spoilt. -/
def commit (d : Database) (session : Nat) : Database :=
  match d.transaction? session with
  | some t =>
    if t.spoilt then d.close session
    else { d.close session with committed := d.committed.applyAll t.changes }
  | none => d

/-- The reply to a statement of a session and the database after it; nothing while the
statement waits. -/
def execute (d : Database) (session : Nat) (s : Statement) : Option (Reply × Database) :=
  match s with
  | .begin => some (.done, d.setTransaction session Transaction.fresh)
  | .commit => some (.done, d.commit session)
  | .rollback => some (.done, d.close session)
  | s =>
    if (d.transaction? session).any (·.spoilt) then some (.failed transactionSpoilt, d)
    else
      match s with
      | .lock id =>
        if d.grants session id then
          some (.done,
            if (id, session) ∈ d.locks then d else { d with locks := (id, session) :: d.locks })
        else none
      | .createVersions => some (.done, d.change session .makeVersions)
      | .createMetrics => some (.done, d.change session .makeMetrics)
      | .latestVersion =>
        d.withVersions session fun versions => some (.version (versions.foldl max 0), d)
      | .addVersion v => d.withVersions session fun _ => some (.done, d.change session (.addVersion v))
      | .find name =>
        d.withMetrics session fun rows => some (.rows (rows.filter (·.1 = name)), d)
      | .findAll names =>
        d.withMetrics session fun rows => some (.rows (rows.filter (·.1 ∈ names)), d)
      | .all => d.withMetrics session fun rows => some (.rows rows, d)
      | .insert m =>
        d.withMetrics session fun rows =>
          if rows.any (·.1 = m.name) then d.fail session nameTaken
          else some (.done, d.change session (.put m.name (.ofMetric m)))
      | .upsert m =>
        d.withMetrics session fun _ =>
          some (.done, d.change session (.put m.name (.ofMetric m)))
      | _ => some (.done, d)

/-- What can go wrong with a statement on its way. -/
inductive Mishap
  /-- the database refuses it -/
  | refusal (code text : String)
  /-- the connection is lost before the statement takes effect, or after that -/
  | loss (afterEffect : Bool)
deriving DecidableEq

/-- As `execute`, if something goes wrong. A lost connection rolls back whatever is not
committed by then. A transaction that is refused its beginning leaves the client in
doubt about the connection. -/
def executeWith (d : Database) (session : Nat) (s : Statement) :
    Mishap → Option (Reply × Database)
  | .refusal code text =>
    some (.failed (if s = .begin then .beginFailed else .reported (some code) text),
      d.spoil session)
  | .loss false => some (.failed .connection, d.close session)
  | .loss true =>
    (d.execute session s).map fun r => (.failed .connection, r.2.close session)

end Database

end Telemetry.Postgres
