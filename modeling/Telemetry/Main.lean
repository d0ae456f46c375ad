import Telemetry.Program.Agent
import Telemetry.Program.Server

/-!
# The command line

The first word tells which program is to run, `agent` or `server`; the rest are its
options.
-/

namespace Telemetry.Program

/-- What the environment says for some options. -/
def readEnvironment (names : List String) : IO (List (String × String)) := do
  let values ← names.mapM fun name => do
    pure ((← IO.getEnv name).map fun value => (name, value))
  pure (values.filterMap id)

/-- Reads a command and runs it. -/
def runCommand {σ : Type} (choices : List (CommandLine.Choice σ))
    (read : (String → Option String) → List String → Except CommandLine.Ending σ)
    (run : σ → IO UInt32) (arguments : List String) : IO UInt32 := do
  let environment ← readEnvironment (choices.map fun c => c.standIn)
  match read (fun name => List.lookup name environment) arguments with
  | .ok command => run command
  | .error ending => pure ending.exitCode

/-- Runs the program that the first word names. -/
def runNamed : List String → IO UInt32
  | "agent" :: arguments =>
    runCommand AgentCommand.choices AgentCommand.read runAgent arguments
  | "server" :: arguments =>
    runCommand ServerCommand.choices ServerCommand.read runServer arguments
  | _ => do
    IO.eprintln "usage: (agent | server) OPTION..."
    pure CommandLine.Ending.misuse.exitCode

end Telemetry.Program

def main (arguments : List String) : IO UInt32 := Telemetry.Program.runNamed arguments
