import Telemetry.Fault
import Telemetry.Log

/-!
# Starting up

A program starts in steps, each of which may leave log lines; the first step that fails
ends it. What was logged before a failure is kept.
-/

namespace Telemetry

/-- Why a program does not start. -/
structure StartFault where
  text : String
  /-- what lies behind it -/
  cause : Option String

namespace StartFault

def ofFault (f : Fault) : StartFault := ⟨f.message, none⟩

/-- The fault as it is shown. -/
def lines (f : StartFault) : List String :=
  ("Error: " ++ f.text) ::
    match f.cause with
    | some cause => ["", "Caused by:", "    " ++ cause]
    | none => []

end StartFault

/-- Steps of a start. The log lines are the latest first. -/
abbrev Startup := ExceptT StartFault (StateM (List LogLine))

namespace Startup

def log (level : LogLevel) (source text : String) : Startup Unit :=
  modify (⟨level, source, text⟩ :: ·)

/-- A step that can fail. -/
def check {α : Type} : Except Fault α → Startup α
  | .ok a => pure a
  | .error f => throw (.ofFault f)

/-- A step whose fault is told with what it was about. -/
def checkAbout {α : Type} (text : String) : Except Fault α → Startup α
  | .ok a => pure a
  | .error (.config cause) => throw ⟨text, some cause.message⟩
  | .error f => throw ⟨text, some f.message⟩

/-- The outcome of a start and its log lines in order. -/
def outcome {α : Type} (s : Startup α) : Except StartFault α × List LogLine :=
  let (result, lines) := (ExceptT.run s).run []
  (result, lines.reverse)

end Startup

end Telemetry
