/-!
# Looking up what was kept

A look-up in what was kept of a list of entries finds what it found before, if entries of its key
are kept, and else nothing.
-/

namespace Telemetry

variable {α β : Type} [BEq α] [LawfulBEq α]

theorem lookup_filter {p : α → Bool} {k : α} (h : p k = true) (l : List (α × β)) :
    (l.filter fun e => p e.1).lookup k = l.lookup k := by
  induction l with
  | nil => rfl
  | cons e l ih =>
    rw [List.filter_cons]
    split
    next => rw [List.lookup_cons, List.lookup_cons, ih]
    next he =>
      have hne : k ≠ e.1 := by
        rintro rfl
        exact he h
      rw [ih, List.lookup_cons, beq_false_of_ne hne]

theorem lookup_filter_eq_none {p : α → Bool} {k : α} (h : p k = false) (l : List (α × β)) :
    (l.filter fun e => p e.1).lookup k = none := by
  induction l with
  | nil => rfl
  | cons e l ih =>
    rw [List.filter_cons]
    split
    next he =>
      have hne : k ≠ e.1 := by
        rintro rfl
        rw [h] at he
        cases he
      rw [List.lookup_cons, beq_false_of_ne hne]
      exact ih
    next => exact ih

end Telemetry
