/-!
# Log lines

What a program tells about itself while it runs: a line has a level, the part of the
program that it comes from, and a text.
-/

namespace Telemetry

inductive LogLevel
  | error
  | warn
  | info
  | debug
  | trace
deriving DecidableEq, Repr

namespace LogLevel

/-- The levels, the gravest first. -/
def all : List LogLevel := [.error, .warn, .info, .debug, .trace]

def text : LogLevel → String
  | .error => "ERROR"
  | .warn => "WARN"
  | .info => "INFO"
  | .debug => "DEBUG"
  | .trace => "TRACE"

/-- How far a level is from the gravest one. -/
def depth (l : LogLevel) : Nat := all.idxOf l

/-- Reads a level in any case. -/
def ofText? (s : String) : Option LogLevel := all.find? fun l => l.text = s.toUpper

end LogLevel

structure LogLine where
  level : LogLevel
  /-- the part of the program -/
  source : String
  text : String
deriving DecidableEq, Repr

namespace LogLine

def line (l : LogLine) : String := l.level.text ++ " " ++ l.source ++ ": " ++ l.text

/-- Whether a line is shown to those who want to see lines down to a level. A level that
is none shows errors. -/
def isShown (l : LogLine) (wanted : String) : Bool :=
  l.level.depth ≤ ((LogLevel.ofText? wanted).getD .error).depth

/-- The line with which a program begins to stop. -/
def stopping (reason : String) : LogLine :=
  ⟨.info, "pulse_core::lifecycle", "종료 시작: " ++ reason⟩

end LogLine

end Telemetry
