import Telemetry.Proofs.Metric.Batch
import Mathlib.Algebra.BigOperators.Group.List.Basic
import Mathlib.Algebra.Order.Group.Int
import Mathlib.Algebra.Ring.Int.Defs

/-!
# Sums that stay in their range

A counter adds up its increments step by step, and each step stays within the range of sixty-four
bits. Where no step has to be kept there, the outcome is the sum (`toInt_sumFrom_of_staysInRange`),
and where nothing is negative it is the sum or the upper end of the range
(`toInt_sumFrom_of_nonneg`). In both cases the order of the increments is lost. In general it is
not: a step that was kept at one end of the range is not made up for by a later one.
-/

namespace Telemetry

/-- The sum of the increments of some metrics, without any bounds. -/
def sumOfDeltas (ms : List Metric) : Int := (ms.map fun m => (m.delta.getD 0).toInt).sum

theorem sumOfDeltas_cons (m : Metric) (ms : List Metric) :
    sumOfDeltas (m :: ms) = (m.delta.getD 0).toInt + sumOfDeltas ms := by
  simp [sumOfDeltas]

theorem sumOfDeltas_concat (ms : List Metric) (m : Metric) :
    sumOfDeltas (ms ++ [m]) = sumOfDeltas ms + (m.delta.getD 0).toInt := by
  simp [sumOfDeltas]

theorem sumOfDeltas_perm {ms ms' : List Metric} (h : ms.Perm ms') :
    sumOfDeltas ms = sumOfDeltas ms' := (h.map _).sum_eq

theorem sumFrom_concat (start : Int64) (ms : List Metric) (m : Metric) :
    sumFrom start (ms ++ [m]) = saturatingAdd (sumFrom start ms) (m.delta.getD 0) := by
  unfold sumFrom
  rw [List.foldl_append]
  rfl

theorem sumOfDeltas_nonneg {ms : List Metric} (h : ∀ m ∈ ms, 0 ≤ (m.delta.getD 0).toInt) :
    0 ≤ sumOfDeltas ms := by
  induction ms with
  | nil => exact Int.le_refl 0
  | cons m ms ih =>
    obtain ⟨hm, hms⟩ := List.forall_mem_cons.mp h
    rw [sumOfDeltas_cons]
    exact Int.add_nonneg hm (ih hms)

/-- **Increments that are not negative** add up to their sum, or to the end of the range. -/
theorem toInt_sumFrom_of_nonneg {start : Int64} {ms : List Metric} (hstart : 0 ≤ start.toInt)
    (h : ∀ m ∈ ms, 0 ≤ (m.delta.getD 0).toInt) :
    (sumFrom start ms).toInt = min Int64.maxValue.toInt (start.toInt + sumOfDeltas ms) := by
  induction ms using List.reverseRecOn with
  | nil =>
    show start.toInt = min Int64.maxValue.toInt (start.toInt + 0)
    rw [Int.add_zero, min_eq_right (Int64.toInt_le start)]
  | append_singleton ms m ih =>
    have hms : ∀ m' ∈ ms, 0 ≤ (m'.delta.getD 0).toInt :=
      fun m' hm' => h m' (List.mem_append_left _ hm')
    have hm := h m (by simp)
    have hsum := sumOfDeltas_nonneg hms
    have hmin : Int64.minValue.toInt < 0 := by decide
    have hmax : 0 < Int64.maxValue.toInt := by decide
    rw [sumFrom_concat, toInt_saturatingAdd, ih hms, sumOfDeltas_concat]
    omega

/-- Whether no step of a sum leaves the range. -/
def StaysInRange (start : Int64) (ms : List Metric) : Prop :=
  ∀ front, front <+: ms →
    Int64.minValue.toInt ≤ start.toInt + sumOfDeltas front ∧
      start.toInt + sumOfDeltas front ≤ Int64.maxValue.toInt

/-- **A sum that stays in its range** is the sum. -/
theorem toInt_sumFrom_of_staysInRange {start : Int64} {ms : List Metric}
    (h : StaysInRange start ms) : (sumFrom start ms).toInt = start.toInt + sumOfDeltas ms := by
  induction ms using List.reverseRecOn with
  | nil => exact (Int.add_zero _).symm
  | append_singleton ms m ih =>
    have hms : StaysInRange start ms :=
      fun front hfront => h front (hfront.trans (List.prefix_append ms [m]))
    obtain ⟨hlow, hhigh⟩ := h _ (List.prefix_refl _)
    rw [sumFrom_concat, toInt_saturatingAdd, ih hms, Int.add_assoc, ← sumOfDeltas_concat,
      min_eq_right hhigh, max_eq_right hlow]

-- where a sum leaves the range on the way, the order does matter
example :
    sumFrom Int64.maxValue [.counter "hits" 1, .counter "hits" (-1)] ≠
      sumFrom Int64.maxValue [.counter "hits" (-1), .counter "hits" 1] := by decide

end Telemetry
