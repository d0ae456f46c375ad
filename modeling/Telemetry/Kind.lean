/-!
# The kinds of metric

A gauge keeps its latest value, a counter adds up increments. The words below are
those used on the wire, in paths and in messages.
-/

namespace Telemetry

inductive Kind
  | gauge
  | counter
deriving DecidableEq, Inhabited, Repr

namespace Kind

def text : Kind → String
  | .gauge => "gauge"
  | .counter => "counter"

/-- The words a kind can be read from. -/
def words : List String := ["gauge", "counter"]

/-- Reads exactly the words that `text` writes. -/
def ofText? (s : String) : Option Kind :=
  if s = "gauge" then some .gauge
  else if s = "counter" then some .counter
  else none

theorem ofText?_text (k : Kind) : ofText? k.text = some k := by
  cases k <;> decide

end Kind

end Telemetry
