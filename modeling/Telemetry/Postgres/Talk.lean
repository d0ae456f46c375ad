import Telemetry.Postgres.Database

/-!
# Talks with a database

A talk is a series of statements, each of which may depend on the replies before it.
It can be held alone, on a connection to a server on which things may go wrong, or
among others, whose statements come between its own in any order.
-/

namespace Telemetry.Postgres

inductive Talk (α : Type) : Type
  | done (a : α)
  | ask (s : Statement) (next : Reply → Talk α)

namespace Talk

def bind {α β : Type} : Talk α → (α → Talk β) → Talk β
  | done a, f => f a
  | ask s next, f => ask s fun r => bind (next r) f

instance : Monad Talk where
  pure := done
  bind := bind

/-- Asks for something that has no reply of its own. A failure is a fault of an
operation. -/
def perform (operation : String) (s : Statement) : Talk (Except Fault Unit) :=
  ask s fun
    | .failed f => done (.error (f.fault operation))
    | _ => done (.ok ())

end Talk

/-- A server at the other end of one connection. -/
structure Server where
  /-- whether connections to it are made at all -/
  reachable : Bool
  database : Database
  /-- the statements that came through, the latest first -/
  received : List Statement
  /-- what goes wrong with a statement after those received before it -/
  mishap : List Statement → Statement → Option Database.Mishap

/-- A client of a server. -/
structure Client where
  server : Server
  /-- whether the tables are known to be there -/
  ready : Bool
  /-- whether the client has been closed -/
  closed : Bool

namespace Client

def session : Nat := 0

/-- Sends one statement. Nobody else is there to wait for. -/
def send (s : Statement) : StateM Client Reply := fun c =>
  if c.closed then (.failed .poolClosed, c)
  else if !c.server.reachable then (.failed .connection, c)
  else
    let server := c.server
    let outcome :=
      match server.mishap server.received s with
      | some mishap => server.database.executeWith session s mishap
      | none => server.database.execute session s
    match outcome with
    | none => (.failed .connection, c)
    | some (reply, database) =>
      (reply,
        { c with server :=
            { server with database := database, received := s :: server.received } })

/-- Holds a talk to its end. -/
def hold {α : Type} : Talk α → StateM Client α
  | .done a => pure a
  | .ask s next => do
    let reply ← send s
    hold (next reply)

end Client

/-- Several talks with one database at once, each in a session of its own. -/
structure Crowd (α : Type) where
  database : Database
  talks : List (Talk α)

namespace Crowd

/-- A statement on its way: whose it is, and what goes wrong with it. -/
structure Turn where
  session : Nat
  mishap : Option Database.Mishap

/-- One talk gets its next reply, unless it has to wait. -/
def step {α : Type} (c : Crowd α) (turn : Turn) : Crowd α :=
  match c.talks[turn.session]? with
  | some (.ask s next) =>
    let outcome :=
      match turn.mishap with
      | some mishap => c.database.executeWith turn.session s mishap
      | none => c.database.execute turn.session s
    match outcome with
    | some (reply, database) =>
      { database := database, talks := c.talks.set turn.session (next reply) }
    | none => c
  | _ => c

def run {α : Type} (c : Crowd α) (turns : List Turn) : Crowd α := turns.foldl step c

/-- Whether a talk can go on only after another transaction has ended. -/
def waits {α : Type} (c : Crowd α) (session : Nat) : Bool :=
  match c.talks[session]? with
  | some (.ask s _) => (c.database.execute session s).isNone
  | _ => false

end Crowd

end Telemetry.Postgres
