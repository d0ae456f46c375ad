import Telemetry.FileTree
import Telemetry.Json.Reader

/-!
# Settings from files

Settings are read from a file if one is named; otherwise the standard ones hold.
-/

namespace Telemetry.Settings

/-- The settings in a file. -/
def load {α : Type} (reader : Json.Reader α) (files : FileTree) (path : String) :
    Except Fault α :=
  match files.readText path with
  | .error cause => .error (.config (.unreadable path cause))
  | .ok text =>
    (Json.Reader.parse reader (Bytes.ofText text)).mapError fun cause =>
      .config (.unparsable path cause)

def loadOr {α : Type} (reader : Json.Reader α) (standard : α) (files : FileTree) :
    Option String → Except Fault α
  | some path => load reader files path
  | none => .ok standard

end Telemetry.Settings
