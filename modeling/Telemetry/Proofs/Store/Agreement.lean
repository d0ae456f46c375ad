import Telemetry.Proofs.Postgres.Alone
import Telemetry.Proofs.Store.Dumping
import Telemetry.Proofs.Store.Growth

/-!
# Three stores, one way to merge

A batch can be merged by small steps, in memory at once, or by a transaction in a database. Each
checks at a place of its own and looks at a part of the store of its own, but over the same
metrics they return the same and leave the same, or all refuse the batch and leave everything
as it is (`merges_agree`). What they are compared with is the merge of the table.
-/

namespace Telemetry

open Fallible (mapM_eq_ok_of_forall)
open Postgres (Row putRow putAll metricAt withoutDatabase)

/-! ## By small steps -/

/-- Merging by small steps does to a store what merging does to its table. -/
theorem run_mergeBySteps {σ : Type} {view : σ → Table} {store : Store (StateM σ)}
    (hstore : AnswersAs view store) {s : σ} (hsound : (view s).Sound) (batch : List Metric) :
    ((mergeBySteps store batch).run s).1 = ((Table.answer (.mergeMany batch)).run (view s)).1 ∧
      view ((mergeBySteps store batch).run s).2 =
        ((Table.answer (.mergeMany batch)).run (view s)).2 := by
  -- what is read is all that matters to the batch
  have hmerge : mergeBatch ((view s).restrict (uniqueNames batch)).get? batch =
      mergeBatch (view s).get? batch := by
    refine mergeBatch_congr fun m hm => ?_
    rw [Table.get?_restrict, if_pos (mem_uniqueNames.mpr ⟨m, hm, rfl⟩)]
  obtain ⟨s₁, hread, hkept⟩ := hstore.run_eq
    (show (Table.answer (.getMany (uniqueNames batch))).run (view s) = (.ok _, view s) from rfl)
  rw [Table.answer_mergeMany]
  unfold mergeBySteps
  rw [run_bind_of_run hread]
  dsimp only
  rw [hmerge]
  cases hmerged : mergeBatch (view s).get? batch with
  | error f => exact ⟨rfl, hkept⟩
  | ok merged =>
    -- what was merged is valid, so it is written
    have hanswer : (Table.answer (.updateMany merged)).run (view s₁) =
        (.ok (), (view s).insertAll merged) := by
      rw [hkept]
      show (view s).keep (((view s).updateMany merged).map fun t => (t, ())) = _
      unfold Table.updateMany
      rw [(hsound.of_mergeBatch hmerged).2]
      rfl
    obtain ⟨s₂, hwrite, hwritten⟩ := hstore.run_eq hanswer
    dsimp only
    rw [run_bind_of_run hwrite]
    exact ⟨rfl, hwritten⟩

/-! ## In a database -/

namespace Table

/-- The rows of a database that hold a table. -/
def rows (t : Table) : List (String × Row) := t.entries.map fun e => (e.1, .ofMetric e.2)

theorem lookup_rows (t : Table) (name : String) :
    t.rows.lookup name = (t.get? name).map Row.ofMetric := by
  unfold rows get?
  induction t.entries with
  | nil => rfl
  | cons e es ih =>
    rw [List.map_cons, List.lookup_cons, List.lookup_cons, ih]
    cases name == e.1 <;> rfl

theorem rows_insert (t : Table) (name : String) (m : Metric) :
    (t.insert name m).rows = putRow name (.ofMetric m) t.rows := by
  unfold rows insert
  induction t.entries with
  | nil => rfl
  | cons e es ih =>
    show (insertEntry name m (e :: es)).map _ = putRow name (.ofMetric m) ((e.1, _) :: es.map _)
    unfold insertEntry putRow
    split
    · rfl
    · split
      · rfl
      · rw [List.map_cons, ih]

/-- Writing to a table and writing to its rows come to the same. -/
theorem rows_insertAll (t : Table) (ms : List Metric) :
    (t.insertAll ms).rows = putAll t.rows ms := by
  induction ms using List.reverseRecOn with
  | nil => rfl
  | append_singleton ms m ih =>
    have hput : putAll t.rows (ms ++ [m]) = putRow m.name (.ofMetric m) (putAll t.rows ms) := by
      unfold putAll
      rw [List.foldl_append]
      rfl
    rw [insertAll_concat, rows_insert, ih, hput]

namespace Sound

variable {t : Table}

/-- The rows of some names are read as the metrics that they hold. -/
theorem exists_metricsOf (h : t.Sound) (p : String → Bool) :
    ∃ ms, Postgres.Merge.metricsOf (t.rows.filter fun e => p e.1) = .ok ms := by
  refine ⟨(t.entries.filter fun e => p e.1).map (·.2), ?_⟩
  unfold Postgres.Merge.metricsOf rows
  rw [List.filter_map, List.mapM_map]
  refine mapM_eq_ok_of_forall fun e he => ?_
  obtain ⟨hname, hvalid⟩ := h e (List.mem_of_mem_filter he)
  show (Row.ofMetric e.2).toMetric e.1 = _
  rw [← hname]
  exact Row.toMetric_ofMetric hvalid

theorem metricAt_rows (h : t.Sound) (name : String) : metricAt t.rows name = t.get? name := by
  unfold metricAt
  rw [lookup_rows]
  cases hm : t.get? name with
  | none => rfl
  | some m =>
    obtain ⟨rfl, hvalid⟩ := h.of_get? hm
    show ((Row.ofMetric m).toMetric m.name).toOption = _
    rw [Row.toMetric_ofMetric hvalid]
    rfl

/-- A merge in a database folds the batch into what the table has. -/
theorem fold_rows (h : t.Sound) (batch : List Metric) :
    Postgres.Merge.fold batch (t.rows.filter fun e => e.1 ∈ uniqueNames batch) =
      mergeBatch t.get? batch := by
  obtain ⟨ms, hms⟩ := h.exists_metricsOf fun name => name ∈ uniqueNames batch
  have hfind := Postgres.Merge.find?_metricsOf hms
  unfold Postgres.Merge.fold
  rw [hms]
  refine mergeBatch_congr fun m hm => ?_
  have hname : m.name ∈ uniqueNames batch := mem_uniqueNames.mpr ⟨m, hm, rfl⟩
  rw [hfind, ← h.metricAt_rows]
  unfold metricAt
  rw [lookup_filter (p := fun name => name ∈ uniqueNames batch) (by simpa using hname)]

/-- A merge in a database that nobody disturbs does to the rows of a table what merging does to
the table, though it may refuse a batch for another reason. -/
theorem undisturbed_rows (h : t.Sound) (batch : List Metric) :
    (∃ merged, mergeBatch t.get? batch = .ok merged ∧
        Postgres.Merge.undisturbed t.rows batch = (.ok merged, (t.insertAll merged).rows)) ∨
      ∃ v v', mergeBatch t.get? batch = .error (.validation v) ∧
        Postgres.Merge.undisturbed t.rows batch = (.error (.validation v'), t.rows) := by
  have hrefused := BreaksRules.mergeBatch t.get? batch
  unfold Postgres.Merge.undisturbed
  cases hvalid : validateAll batch with
  | error f =>
    -- the whole batch is checked first, and the fold meets the invalid member or fails before it
    obtain ⟨v', rfl⟩ := BreaksRules.validateAll batch f hvalid
    cases hmerged : mergeBatch t.get? batch with
    | ok merged =>
      rw [(h.of_mergeBatch hmerged).1] at hvalid
      cases hvalid
    | error f =>
      obtain ⟨v, rfl⟩ := hrefused f hmerged
      refine Or.inr ⟨v, v', rfl, ?_⟩
      simp only [withoutDatabase, hvalid]
  | ok u =>
    by_cases hempty : batch = []
    · subst hempty
      exact Or.inl ⟨[], rfl, rfl⟩
    · rw [Postgres.MergeCall.withoutDatabase_eq_none_iff.mpr ⟨hvalid, hempty⟩]
      unfold Postgres.Merge.outcome
      dsimp only
      rw [h.fold_rows]
      cases hmerged : mergeBatch t.get? batch with
      | error f =>
        obtain ⟨v, rfl⟩ := hrefused f hmerged
        exact Or.inr ⟨v, v, rfl, rfl⟩
      | ok merged => exact Or.inl ⟨merged, rfl, by rw [rows_insertAll]⟩

end Sound

end Table

/-! ## All three -/

/-- **However a batch is merged, it comes to the same.** Over the same metrics, each of them
valid and under its own name, merging by small steps, in memory at once, and in a database
return the same results and leave the same metrics, or they all find a rule broken and leave
everything as it is. -/
theorem merges_agree {t : Table} (hsound : t.Sound) {memory : DumpingStore}
    (hmemory : memory.table = t) {client : Postgres.Client} (hclient : client.AloneWith t.rows)
    (batch : List Metric) :
    let bySteps := (mergeBySteps DumpingStore.call batch).run memory
    let atOnce := (DumpingStore.call (.mergeMany batch)).run memory
    let inDatabase := (Postgres.Client.answer (.mergeMany batch)).run client
    (∃ merged after,
        (bySteps.1 = .ok merged ∧ atOnce.1 = .ok merged ∧ inDatabase.1 = .ok merged) ∧
          bySteps.2.table = after ∧ atOnce.2.table = after ∧
            inDatabase.2.AloneWith after.rows) ∨
      ((∃ v, bySteps.1 = .error (.validation v)) ∧ (∃ v, atOnce.1 = .error (.validation v)) ∧
          ∃ v, inDatabase.1 = .error (.validation v)) ∧
        bySteps.2.table = t ∧ atOnce.2.table = t ∧ inDatabase.2.AloneWith t.rows := by
  intro bySteps atOnce inDatabase
  subst hmemory
  obtain ⟨hsteps, hstepsTable⟩ := run_mergeBySteps DumpingStore.answersAs_call hsound batch
  obtain ⟨honce, honceTable⟩ := DumpingStore.answersAs_call (.mergeMany batch) memory
  obtain ⟨hdatabase, hdatabaseRows⟩ := Postgres.Client.answer_mergeMany_alone hclient batch
  rw [Table.answer_mergeMany] at hsteps hstepsTable honce honceTable
  rcases hsound.undisturbed_rows batch with ⟨merged, hmerged, hrows⟩ | ⟨v, v', hrefused, hrows⟩
  · rw [hmerged] at hsteps hstepsTable honce honceTable
    rw [hrows] at hdatabase hdatabaseRows
    exact Or.inl ⟨merged, memory.table.insertAll merged, ⟨hsteps, honce, hdatabase⟩,
      hstepsTable, honceTable, hdatabaseRows⟩
  · rw [hrefused] at hsteps hstepsTable honce honceTable
    rw [hrows] at hdatabase hdatabaseRows
    exact Or.inr ⟨⟨⟨v, hsteps⟩, ⟨v, honce⟩, ⟨v', hdatabase⟩⟩, hstepsTable, honceTable,
      hdatabaseRows⟩

/-- A counter that comes twice, and a gauge that replaces another, in all three ways. -/
theorem merges_agree_on_repeated_counter :
    let gauge : Metric := .gauge "cpu" ⟨0x4045000000000000⟩
    let t : Table := ⟨[("cpu", .gauge "cpu" ⟨0x3ff0000000000000⟩), ("hits", .counter "hits" 2)]⟩
    let memory : DumpingStore := { DumpingStore.plain .empty with table := t }
    let client : Postgres.Client := .overRows t.rows
    let batch : List Metric := [.counter "hits" 3, gauge, .counter "hits" 4]
    let merged : List Metric := [.counter "hits" 9, gauge]
    let after : Table := ⟨[("cpu", gauge), ("hits", .counter "hits" 9)]⟩
    t.Sound ∧ memory.table = t ∧ client.AloneWith t.rows ∧
      (((mergeBySteps DumpingStore.call batch).run memory).1 = .ok merged ∧
        ((DumpingStore.call (.mergeMany batch)).run memory).1 = .ok merged ∧
          ((Postgres.Client.answer (.mergeMany batch)).run client).1 = .ok merged) ∧
        ((mergeBySteps DumpingStore.call batch).run memory).2.table = after ∧
          ((DumpingStore.call (.mergeMany batch)).run memory).2.table = after ∧
            ((Postgres.Client.answer (.mergeMany batch)).run client).2.AloneWith after.rows := by
  intro gauge t memory client batch merged after
  have hsound : t.Sound := by decide
  have hclient : client.AloneWith t.rows := Postgres.Client.aloneWith_overRows t.rows
  have honce : ((DumpingStore.call (.mergeMany batch)).run memory).1 = .ok merged := rfl
  have htable : ((DumpingStore.call (.mergeMany batch)).run memory).2.table = after := by
    decide +kernel
  refine ⟨hsound, rfl, hclient, ?_⟩
  rcases merges_agree hsound (show memory.table = t from rfl) hclient batch with
    ⟨merged', after', hmerged, hafter⟩ | ⟨⟨-, ⟨v, hrefused⟩, -⟩, -⟩
  · obtain rfl : merged' = merged := Except.ok.inj (hmerged.2.1.symm.trans honce)
    obtain rfl : after' = after := hafter.2.1.symm.trans htable
    exact ⟨hmerged, hafter⟩
  · cases honce.symm.trans hrefused

end Telemetry
