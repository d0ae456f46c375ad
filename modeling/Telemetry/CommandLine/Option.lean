import Telemetry.Decimal.Text

/-!
# Options

An option takes a value: behind its name, after an equals sign, or as the next
argument. An option that is not given takes its value from a variable of the
environment. No option is given twice, nothing is given that is no option, and every
value has to be one that its option accepts; the first argument that breaks a rule, or
asks for help, ends the reading.
-/

namespace Telemetry.CommandLine

/-- An option of a command that is read into a `σ`. -/
structure Choice (σ : Type) where
  name : String
  letter : Option Char
  /-- the variable that stands in for it -/
  standIn : String
  /-- what a value changes, if the option accepts it -/
  read : String → Option (σ → σ)

/-- Why a command is not run. -/
inductive Ending
  | help
  | version
  | misuse
deriving DecidableEq, Repr

def Ending.exitCode : Ending → UInt32
  | .help | .version => 0
  | .misuse => 2

/-- An argument that names an option, perhaps with its value. -/
structure Naming (σ : Type) where
  choice : Choice σ
  value : Option String

/-- What an argument names. -/
def naming {σ : Type} (choices : List (Choice σ)) (argument : String) :
    Except Ending (Naming σ) :=
  let found (c : Option (Choice σ)) (value : Option String) : Except Ending (Naming σ) :=
    match c with
    | some choice => .ok ⟨choice, value⟩
    | none => .error .misuse
  match argument.toList with
  | '-' :: '-' :: rest =>
    let name := String.ofList (rest.takeWhile (· ≠ '='))
    let value :=
      if '=' ∈ rest then some (String.ofList ((rest.dropWhile (· ≠ '=')).drop 1)) else none
    if name = "help" then .error (if value.isNone then .help else .misuse)
    else if name = "version" then .error (if value.isNone then .version else .misuse)
    else found (choices.find? (·.name = name)) value
  | '-' :: 'h' :: _ => .error .help
  | '-' :: 'V' :: _ => .error .version
  | '-' :: letter :: rest =>
    let value :=
      match rest with
      | [] => none
      | '=' :: value => some (String.ofList value)
      | value => some (String.ofList value)
    found (choices.find? (·.letter = some letter)) value
  | _ => .error .misuse

/-- Whether an argument can be the value of the option before it. -/
def isValue (argument : String) : Bool := argument = "-" || !argument.startsWith "-"

/-- What has been read so far, and the names of the options that were given. -/
structure Progress (σ : Type) where
  command : σ
  given : List String

def Progress.accept {σ : Type} (p : Progress σ) (c : Choice σ) (value : String) :
    Except Ending (Progress σ) :=
  if c.name ∈ p.given then .error .misuse
  else
    match c.read value with
    | some change => .ok ⟨change p.command, c.name :: p.given⟩
    | none => .error .misuse

/-- Reads the arguments. -/
def readArguments {σ : Type} (choices : List (Choice σ)) (p : Progress σ) :
    List String → Except Ending (Progress σ)
  | [] => .ok p
  | ["--"] => .ok p
  | argument :: rest =>
    match naming choices argument with
    | .error e => .error e
    | .ok ⟨c, some value⟩ =>
      match p.accept c value with
      | .error e => .error e
      | .ok p => readArguments choices p rest
    | .ok ⟨c, none⟩ =>
      match rest with
      | value :: rest =>
        if isValue value then
          match p.accept c value with
          | .error e => .error e
          | .ok p => readArguments choices p rest
        else .error .misuse
      | [] => .error .misuse

/-- Reads what the environment says for an option that was not given. -/
def readStandIn {σ : Type} (environment : String → Option String) (p : Progress σ)
    (c : Choice σ) : Except Ending (Progress σ) :=
  if c.name ∈ p.given then .ok p
  else
    match environment c.standIn with
    | some value => p.accept c value
    | none => .ok p

/-- Reads a command. -/
def read {σ : Type} (choices : List (Choice σ)) (environment : String → Option String)
    (start : σ) (arguments : List String) : Except Ending σ := do
  let p ← readArguments choices ⟨start, []⟩ arguments
  let p ← choices.foldlM (readStandIn environment) p
  pure p.command

/-! ## Kinds of values -/

/-- A path, which is not empty. -/
def path? (s : String) : Option String := if s.isEmpty then none else some s

/-- A number of 64 bits, perhaps with a plus sign. -/
def natural? (s : String) : Option Nat :=
  let digits :=
    match s.toList with
    | '+' :: rest => rest
    | cs => cs
  if digits.isEmpty || !digits.all Char.isDigit then none
  else
    let n := digits.foldl (fun n c => n * 10 + (c.toNat - 48)) 0
    if n < UInt64.size then some n else none

def bool? (s : String) : Option Bool :=
  if s = "true" then some true else if s = "false" then some false else none

end Telemetry.CommandLine
