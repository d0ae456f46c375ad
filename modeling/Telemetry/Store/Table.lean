import Telemetry.Metric

/-!
# Tables of metrics

A table maps names to metrics, in the order of the names. It says nothing about the
metrics in it; that each is valid and stands under its own name is what the operations
of a store take care of.
-/

namespace Telemetry

structure Table where
  entries : List (String × Metric)
deriving DecidableEq, Inhabited

namespace Table

def empty : Table := ⟨[]⟩

def size (t : Table) : Nat := t.entries.length

def get? (t : Table) (name : String) : Option Metric := t.entries.lookup name

/-- Puts an entry into its place among entries in order. -/
def insertEntry (name : String) (m : Metric) : List (String × Metric) → List (String × Metric)
  | [] => [(name, m)]
  | e :: rest =>
    if name < e.1 then (name, m) :: e :: rest
    else if name = e.1 then (name, m) :: rest
    else e :: insertEntry name m rest

/-- The table with a metric under a name, in place of what stood there. -/
def insert (t : Table) (name : String) (m : Metric) : Table :=
  ⟨insertEntry name m t.entries⟩

/-- The table with some metrics under their own names. Of two with one name the later
one stays. -/
def insertAll (t : Table) (ms : List Metric) : Table :=
  ms.foldl (fun t m => t.insert m.name m) t

def ofMetrics (ms : List Metric) : Table := empty.insertAll ms

/-- The metrics, in the order of their names. -/
def metrics (t : Table) : List Metric := t.entries.map (·.2)

/-- The part of a table under some names. -/
def restrict (t : Table) (names : List String) : Table :=
  names.foldl
    (fun found name =>
      match t.get? name with
      | some m => found.insert name m
      | none => found)
    empty

end Table

end Telemetry
