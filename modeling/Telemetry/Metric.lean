import Telemetry.Fault

/-!
# Metrics and the merge rule

A metric has a name, a kind, and a value or an increment. A document can hold any
combination of the two, so the type can as well; `validate` admits a named gauge with
a finite value alone and a named counter with an increment alone.

`merge` folds an incoming metric into a stored one of the same name and kind: a gauge
takes the incoming value, a counter adds the increment and stops at the ends of the
sixty-four bit range. Merging is not idempotent for counters. `mergeBatch` folds a
batch into what is stored, one result per name in the order in which the names first
appear, and fails as a whole at the first member that does not fit.
-/

namespace Telemetry

/-- A metric as a document can hold it. -/
structure Metric where
  name : String
  kind : Kind
  /-- the value of a gauge -/
  value : Option Binary64
  /-- the increment, or the total, of a counter -/
  delta : Option Int64
deriving DecidableEq, Inhabited

/-- Sum of two increments, kept at the nearer end of the range if it leaves it. -/
def saturatingAdd (a b : Int64) : Int64 := Int64.ofIntClamp (a.toInt + b.toInt)

namespace Metric

def gauge (name : String) (value : Binary64) : Metric := ⟨name, .gauge, some value, none⟩

def counter (name : String) (delta : Int64) : Metric := ⟨name, .counter, none, some delta⟩

/-- The first rule that a metric breaks, if it breaks one. -/
def violation? (m : Metric) : Option Violation :=
  if m.name.isEmpty then some .emptyName
  else
    match m.kind, m.value, m.delta with
    | .gauge, some v, none => if v.isFinite then none else some .notFinite
    | .counter, none, some _ => none
    | _, some _, some _ => some .valueAndDelta
    | .gauge, _, _ => some .valueMissing
    | .counter, _, _ => some .deltaMissing

/-- Whether a metric may be stored. -/
def validate (m : Metric) : Except Fault Unit :=
  match m.violation? with
  | none => .ok ()
  | some v => .error (.validation v)

/-- A stored metric after an incoming one of the same name and kind. -/
def merge (stored incoming : Metric) : Except Fault Metric :=
  if stored.name ≠ incoming.name then
    .error (.validation (.otherName stored.name incoming.name))
  else if stored.kind ≠ incoming.kind then
    .error (.validation (.otherKind stored.name stored.kind incoming.kind))
  else
    match stored.kind with
    | .gauge => .ok { stored with value := incoming.value }
    | .counter =>
      .ok { stored with
        delta := some (saturatingAdd (stored.delta.getD 0) (incoming.delta.getD 0)) }

/-- The value or else the increment, in plain digits; nothing if there is neither. -/
def valueText (m : Metric) : String :=
  match m.value, m.delta with
  | some v, _ => v.plain
  | none, some d => int64Text d
  | none, none => ""

/-- The metric that three parts of a path spell out. -/
def ofTexts (kind name value : String) : Except Fault Metric := do
  match Kind.ofText? kind with
  | none => throw (.validation (.unknownKind kind))
  | some .gauge =>
    match Decimal.readReal value with
    | .error cause => throw (.validation (.unreadableValue cause))
    | .ok v =>
      let m := gauge name v
      m.validate
      pure m
  | some .counter =>
    match Decimal.readInt64 value with
    | .error cause => throw (.validation (.unreadableDelta cause))
    | .ok d =>
      let m := counter name d
      m.validate
      pure m

end Metric

/-- The names in a batch, each once, in the order of first appearance. -/
def uniqueNames (batch : List Metric) : List String :=
  batch.foldl (fun names m => if m.name ∈ names then names else names ++ [m.name]) []

/-- A step of `mergeBatch`: the results so far, in order, after one more member.
A name that has a result already is merged into it, any other into what is stored. -/
def mergeMember (stored : String → Option Metric) (results : List Metric)
    (incoming : Metric) : Except Fault (List Metric) := do
  incoming.validate
  if results.any (fun r => r.name = incoming.name) then
    results.mapM fun r =>
      if r.name = incoming.name then r.merge incoming else .ok r
  else
    match stored incoming.name with
    | some s => do
      let merged ← s.merge incoming
      pure (results ++ [merged])
    | none => pure (results ++ [incoming])

/-- Folds a batch into what is stored: one metric for each name of the batch. -/
def mergeBatch (stored : String → Option Metric) (batch : List Metric) :
    Except Fault (List Metric) :=
  batch.foldlM (mergeMember stored) []

end Telemetry
