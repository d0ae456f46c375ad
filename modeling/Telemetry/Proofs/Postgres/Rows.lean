import Telemetry.Postgres.Merge
import Telemetry.Proofs.Metric.Batch
import Telemetry.Proofs.Postgres.Database

/-!
# What the rows of a table say

A name has a metric if its row spells one (`metricAt`). Writing metrics changes what the table
says of their names and of no others, and a merge that was made from some rows and is written
over them folds each name with its occurrences (`Merge.foldName_metricAt`).
-/

namespace Telemetry.Postgres

open Fallible (bind_eq_ok_iff map_eq_ok_iff)

variable {rows : List (String × Row)}

theorem lookup_putRow_self (name : String) (r : Row) (rows : List (String × Row)) :
    (putRow name r rows).lookup name = some r := by
  induction rows with
  | nil => simp [putRow]
  | cons e rows ih =>
    unfold putRow
    split
    · simp
    · split
      · simp
      next hne =>
        rw [List.lookup_cons, beq_false_of_ne hne]
        exact ih

theorem lookup_putRow_of_ne {name other : String} (h : other ≠ name) (r : Row)
    (rows : List (String × Row)) :
    (putRow name r rows).lookup other = rows.lookup other := by
  induction rows with
  | nil => simp [putRow, List.lookup_cons, beq_false_of_ne h]
  | cons e rows ih =>
    unfold putRow
    split
    · rw [List.lookup_cons, beq_false_of_ne h]
    · split
      next heq =>
        rw [List.lookup_cons, List.lookup_cons, beq_false_of_ne h, ← heq, beq_false_of_ne h]
      next => rw [List.lookup_cons, List.lookup_cons, ih]

theorem lookup_putAll_of_not_mem {ms : List Metric} {name : String}
    (h : name ∉ ms.map (·.name)) (rows : List (String × Row)) :
    (putAll rows ms).lookup name = rows.lookup name := by
  induction ms generalizing rows with
  | nil => rfl
  | cons m ms ih =>
    rw [List.map_cons, List.mem_cons, not_or] at h
    show (putAll (putRow m.name (.ofMetric m) rows) ms).lookup name = _
    rw [ih h.2, lookup_putRow_of_ne h.1]

theorem lookup_putAll_of_mem {ms : List Metric} (hnodup : (ms.map (·.name)).Nodup) {m : Metric}
    (hm : m ∈ ms) (rows : List (String × Row)) :
    (putAll rows ms).lookup m.name = some (.ofMetric m) := by
  induction ms generalizing rows with
  | nil => cases hm
  | cons m' ms ih =>
    rw [List.map_cons, List.nodup_cons] at hnodup
    show (putAll (putRow m'.name (.ofMetric m') rows) ms).lookup m.name = _
    rcases List.mem_cons.mp hm with rfl | hm
    · rw [lookup_putAll_of_not_mem hnodup.1, lookup_putRow_self]
    · exact ih hnodup.2 hm _

/-- A metric that may be stored is read as it was written. -/
theorem Row.toMetric_ofMetric {m : Metric} (h : m.validate = .ok ()) :
    (Row.ofMetric m).toMetric m.name = .ok m := by
  unfold toMetric ofMetric
  rw [Kind.ofText?_text]
  show (m.validate).map _ = _
  rw [h]
  rfl

/-- What is read is valid, and has the name under which it stood. -/
theorem Row.toMetric_eq_ok {name : String} {r : Row} {m : Metric}
    (h : r.toMetric name = .ok m) : m.name = name ∧ m.validate = .ok () := by
  unfold toMetric at h
  split at h
  · cases h
  · obtain ⟨u, hvalid, rfl⟩ := map_eq_ok_iff.mp h
    exact ⟨rfl, hvalid⟩

/-- The metric that a table has under a name. -/
def metricAt (rows : List (String × Row)) (name : String) : Option Metric :=
  (rows.lookup name).bind fun r => (r.toMetric name).toOption

theorem metricAt_eq_some {name : String} {m : Metric} (h : metricAt rows name = some m) :
    m.name = name ∧ m.validate = .ok () := by
  obtain ⟨r, -, hr⟩ := Option.bind_eq_some_iff.mp h
  cases hm : r.toMetric name with
  | error f =>
    rw [hm] at hr
    cases hr
  | ok m' =>
    rw [hm] at hr
    cases hr
    exact Row.toMetric_eq_ok hm

namespace Merge

/-- Where all rows spell metrics, the metric of a name is found among these. -/
theorem find?_metricsOf {ms : List Metric} (h : metricsOf rows = .ok ms) (name : String) :
    (ms.find? fun m => m.name = name) = metricAt rows name := by
  induction rows generalizing ms with
  | nil =>
    cases h
    rfl
  | cons e rows ih =>
    unfold metricsOf at h ih
    rw [List.mapM_cons] at h
    obtain ⟨m, hm, h⟩ := bind_eq_ok_iff.mp h
    obtain ⟨rest, hrest, h⟩ := bind_eq_ok_iff.mp h
    cases h
    have hname := (Row.toMetric_eq_ok hm).1
    unfold metricAt
    rw [List.lookup_cons, List.find?_cons]
    -- each row spells a metric of its own name, so both look-ups stop at the same place
    by_cases heq : m.name = name
    · subst heq
      rw [hname, beq_self_eq_true, decide_eq_true rfl]
      show some m = (e.2.toMetric e.1).toOption
      rw [hm]
      rfl
    · have hne : name ≠ e.1 := fun h => heq (hname.trans h.symm)
      rw [beq_false_of_ne hne, decide_eq_false heq]
      exact ih hrest

variable {batch merged : List Metric}

/-- A merge folds each name of the batch, from what its rows say of the name. -/
theorem folded_of_fold (h : fold batch rows = .ok merged) :
    Folded (metricAt rows) batch merged ∧ Admissible (metricAt rows) batch := by
  obtain ⟨stored, hstored, hmerge⟩ := bind_eq_ok_iff.mp h
  have hfind : (fun name => stored.find? fun m => m.name = name) = metricAt rows :=
    funext (find?_metricsOf hstored)
  rw [hfind] at hmerge
  obtain ⟨hok, hfolded⟩ := mergeBatch_folded (fun name s hs => (metricAt_eq_some hs).1) batch
  exact ⟨hfolded merged hmerge, hok.mp ⟨merged, hmerge⟩⟩

/-- The results of a merge are one for each name of the batch. -/
theorem names_of_fold (h : fold batch rows = .ok merged) :
    merged.map (·.name) = uniqueNames batch :=
  (folded_of_fold h).1.names

theorem ne_nil_of_fold (hbatch : batch ≠ []) (h : fold batch rows = .ok merged) :
    merged ≠ [] := by
  rintro rfl
  obtain ⟨m, hm⟩ := List.exists_mem_of_ne_nil batch hbatch
  have hname : m.name ∈ uniqueNames batch := mem_uniqueNames.mpr ⟨m, hm, rfl⟩
  rw [← names_of_fold h] at hname
  cases hname

/-- Once a merge is written, each name has what its fold gives, and other names have what
they had. -/
theorem foldName_metricAt
    (h : fold batch (rows.filter fun e => e.1 ∈ uniqueNames batch) = .ok merged)
    (name : String) :
    foldName (metricAt rows name) (occurrences batch name) =
      .ok (metricAt (putAll rows merged) name) := by
  obtain ⟨hfolded, hadmissible⟩ := folded_of_fold h
  by_cases hname : name ∈ uniqueNames batch
  · -- what was read of the name is all that is stored of it
    have hread : metricAt (rows.filter fun e => e.1 ∈ uniqueNames batch) name =
        metricAt rows name := by
      unfold metricAt
      rw [lookup_filter (p := fun name => name ∈ uniqueNames batch) (by simpa using hname)]
    obtain ⟨r, hr, rfl⟩ := hfolded.mem_iff.mp hname
    have hentry := hfolded.entries r hr
    rw [hread] at hentry
    have hvalid : r.validate = .ok () := by
      refine validate_foldName hentry (fun s hs => (metricAt_eq_some hs).2) fun m hm => ?_
      exact (hadmissible m (List.mem_of_mem_filter hm)).1
    have hnodup : (merged.map (·.name)).Nodup := by
      rw [hfolded.names]
      exact nodup_uniqueNames batch
    rw [hentry]
    unfold metricAt
    rw [lookup_putAll_of_mem hnodup hr]
    show _ = Except.ok ((Row.ofMetric r).toMetric r.name).toOption
    rw [Row.toMetric_ofMetric hvalid]
    rfl
  · have hkept : metricAt (putAll rows merged) name = metricAt rows name := by
      unfold metricAt
      rw [lookup_putAll_of_not_mem]
      rw [hfolded.names]
      exact hname
    rw [occurrences_eq_nil_iff.mpr hname, hkept, foldName_nil]

end Merge

end Telemetry.Postgres
