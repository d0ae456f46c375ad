import Telemetry.Proofs.Metric.Document
import Telemetry.Proofs.Store.Ordered
import Telemetry.Proofs.Store.Undisturbed

/-!
# What a restart makes of a store

A store that was dumped can always be restored, and has then the same names in the same order, each
with the same kind and increment. The value of a gauge is what a reader makes of its document, so the
store is the same exactly if each value comes back from that (`DumpingStore.restored_table`).
Not every value does (`DumpingStore.gauge_drifts_at_restart`).
-/

namespace Telemetry

/-! ## Metrics and tables read back -/

namespace Metric

variable {m : Metric}

theorem validate_reread (h : m.validate = .ok ()) : m.reread.validate = .ok () := by
  rw [validate_eq_ok_iff, violation?_eq_none_iff] at h ⊢
  refine ⟨h.1, h.2.imp ?_ ?_⟩
  · rintro ⟨hkind, hdelta, v, hvalue, hfinite⟩
    refine ⟨hkind, hdelta, v.reread, ?_, (Binary64.takes_document hfinite).2.1⟩
    unfold reread
    rw [hvalue]
    rfl
  · rintro ⟨hkind, hvalue, hdelta⟩
    refine ⟨hkind, ?_, hdelta⟩
    unfold reread
    rw [hvalue]
    rfl

theorem isFinite_of_validate (h : m.validate = .ok ()) {v : Binary64} (hv : v ∈ m.value) :
    v.isFinite = true := by
  rw [validate_eq_ok_iff, violation?_eq_none_iff] at h
  obtain ⟨-, ⟨-, -, v', hvalue, hfinite⟩ | ⟨-, hvalue, -⟩⟩ := h
  · rw [hvalue] at hv
    exact Option.mem_some.mp hv ▸ hfinite
  · rw [hvalue] at hv
    cases hv

/-- A metric comes back as it was if its value does. -/
theorem reread_eq_self_iff : m.reread = m ↔ ∀ v ∈ m.value, v.reread = v := by
  obtain ⟨name, kind, value, delta⟩ := m
  unfold reread
  cases value <;> simp

end Metric

namespace Table

/-- A table with each metric read back. -/
def reread (t : Table) : Table := ⟨t.entries.map fun e => (e.1, e.2.reread)⟩

variable {t : Table}

theorem metrics_reread (t : Table) : t.reread.metrics = t.metrics.map Metric.reread := by
  unfold metrics reread
  rw [List.map_map, List.map_map]
  rfl

theorem reread_eq_self_iff :
    t.reread = t ↔ ∀ e ∈ t.entries, ∀ v ∈ e.2.value, v.reread = v := by
  obtain ⟨es⟩ := t
  have hentry : ∀ e : String × Metric,
      (e.1, e.2.reread) = e ↔ ∀ v ∈ e.2.value, v.reread = v := by
    intro e
    rw [← Metric.reread_eq_self_iff, Prod.ext_iff]
    exact and_iff_right rfl
  unfold reread
  rw [Table.mk.injEq]
  conv_lhs => rw [← List.map_id es]
  rw [List.map_map, List.map_inj_left]
  exact forall₂_congr fun e _ => hentry e

/-- A table in order, each metric of it under its own name, stays one when it is read back. -/
theorem ofMetrics_reread (h : t.Ordered) (hsound : t.Sound) :
    ofMetrics (t.metrics.map Metric.reread) = t.reread := by
  rw [← metrics_reread]
  refine Ordered.ofMetrics_metrics ?_ fun e he => ?_
  · exact List.pairwise_map.mpr h
  · obtain ⟨e', he', rfl⟩ := List.mem_map.mp he
    exact (hsound e' he').1

end Table

/-! ## A snapshot loaded -/

/-- What is loaded from a file with a list of metrics are those that are valid when they are read
back. -/
theorem Snapshot.load_of_read_recorded {files : FileTree} {path : String} {ms : List Metric}
    (hread : files.read path = .ok (Metric.listDocumentBytes ms)) :
    load files path = .ok ((ms.map Metric.recorded).filter fun m => m.violation?.isNone) := by
  have hexists : files.exists? path = true := by
    obtain ⟨p, hp, hfile⟩ := FileTree.read_eq_ok_iff.mp hread
    unfold FileTree.exists?
    rw [hp]
    dsimp only
    rw [hfile]
    rfl
  have hparse := Metric.parseList_listDocumentBytes ms
  obtain ⟨b, bs, hbytes⟩ : ∃ b bs, Metric.listDocumentBytes ms = b :: bs :=
    ⟨_, _, Json.Reader.ofText_array _⟩
  unfold load
  rw [hexists, hread]
  rw [hbytes] at hparse ⊢
  dsimp only
  rw [hparse]
  rfl

/-- What is loaded from a file with the list of valid metrics are these metrics, read back. -/
theorem Snapshot.load_of_read {files : FileTree} {path : String} {ms : List Metric}
    (hread : files.read path = .ok (Metric.listDocumentBytes ms))
    (hms : ∀ m ∈ ms, m.validate = .ok ()) : load files path = .ok (ms.map Metric.reread) := by
  rw [load_of_read_recorded hread,
    List.map_congr_left fun m hm => Metric.recorded_eq_reread (hms m hm)]
  -- none of them is passed over
  refine congrArg Except.ok (List.filter_eq_self.mpr fun m hm => ?_)
  obtain ⟨m', hm', rfl⟩ := List.mem_map.mp hm
  rw [Metric.validate_eq_ok_iff.mp (Metric.validate_reread (hms m' hm'))]
  rfl

namespace DumpingStore

/-! ## A store restored -/

section

variable {files : FileTree} {path : String} {interval : Nanos} {restore : Bool}
  {store : DumpingStore}

/-- The table of a store with a snapshot file at first is in order. -/
theorem ordered_withSnapshot (h : withSnapshot files path interval restore = .ok store) :
    store.table.Ordered := by
  unfold withSnapshot at h
  dsimp only at h
  split at h
  · obtain ⟨metrics, -, h⟩ := Fallible.bind_eq_ok_iff.mp h
    rw [← Except.ok.inj h]
    exact Table.Ordered.empty.insertAll metrics
  · rw [← Except.ok.inj h]
    exact .empty

/-- **What a restart makes of a store.** A store with a snapshot file, whatever it was asked, is
dumped if the changes to the files succeed, and made again from its file: that succeeds as well, and
gives the names, kinds and increments that there were, and for each value the one that is read from
its document. So all is as it was exactly if every value comes back from its document, which is so
if each is spelled exactly. -/
theorem restored_table (hstore : withSnapshot files path interval restore = .ok store)
    (calls : List StoreCall) {files' : FileTree}
    (hfiles : (store.afterCalls calls).files.applyAll
      (Snapshot.changes (store.afterCalls calls).files path
        (store.afterCalls calls).table.metrics) = (files', .ok ()))
    (interval' : Nanos) :
    let s := store.afterCalls calls
    persist.run s = (.ok (), { s with files := files' }) ∧
      ∃ restored, withSnapshot files' path interval' true = .ok restored ∧
        restored.table = s.table.reread ∧
        (restored.table = s.table ↔ ∀ e ∈ s.table.entries, ∀ v ∈ e.2.value, v.reread = v) ∧
        ((∀ e ∈ s.table.entries, ∀ v ∈ e.2.value, v.spelledExactly = true) →
          restored.table = s.table) := by
  intro s
  have hsound : s.table.Sound := by
    rw [table_afterCalls store calls]
    exact (sound_withSnapshot hstore).afterCalls calls
  have hordered : s.table.Ordered := by
    rw [table_afterCalls store calls]
    exact (ordered_withSnapshot hstore).afterCalls (sound_withSnapshot hstore) calls
  have hvalid : ∀ m ∈ s.table.metrics, m.validate = .ok () := by
    intro m hm
    obtain ⟨e, he, rfl⟩ := List.mem_map.mp hm
    exact (hsound e he).2
  obtain ⟨hsave, hread⟩ := Snapshot.save_of_applyAll hfiles
  have hpersist : persist.run s = (.ok (), { s with files := files' }) := by
    rw [((AtRest.withSnapshot hstore).afterCalls calls).run_persist, hsave]
  -- the file is read as the metrics of the table, which are written in the same order again
  have hload := Snapshot.load_of_read hread hvalid
  have hrestored : withSnapshot files' path interval' true =
      .ok { plain files' with
        table := s.table.reread
        snapshot := some path
        dumpsWrites := interval' = 0 } := by
    unfold withSnapshot
    dsimp only
    rw [if_pos rfl, hload, ← Table.ofMetrics_reread hordered hsound]
    rfl
  refine ⟨hpersist, _, hrestored, rfl, Table.reread_eq_self_iff, fun hspelled => ?_⟩
  refine Table.reread_eq_self_iff.mpr fun e he v hv => ?_
  have hfinite := Metric.isFinite_of_validate (hsound e he).2 hv
  exact Binary64.reread_of_spelledExactly hfinite (hspelled e he v hv)

/-- Two tenths and five hits come back after a restart as they were. -/
theorem restored_table_of_load_and_hits :
    let store : DumpingStore := { plain .empty with snapshot := some "m.json" }
    let s := store.afterCalls
      [.update (.gauge "load" ⟨0x3fc999999999999a⟩), .mergeMany [.counter "hits" 5]]
    let files' := (s.files.applyAll (Snapshot.changes s.files "m.json" s.table.metrics)).1
    withSnapshot .empty "m.json" 300000000000 false = .ok store ∧
      s.files.applyAll (Snapshot.changes s.files "m.json" s.table.metrics) = (files', .ok ()) ∧
      persist.run s = (.ok (), { s with files := files' }) ∧
      ∃ restored, withSnapshot files' "m.json" 300000000000 true = .ok restored ∧
        restored.table = s.table ∧
        restored.table.metrics =
          [.counter "hits" 5, .gauge "load" ⟨0x3fc999999999999a⟩] := by
  intro store s files'
  have hstore : withSnapshot .empty "m.json" 300000000000 false = .ok store := rfl
  have hfiles : s.files.applyAll (Snapshot.changes s.files "m.json" s.table.metrics) =
      (files', .ok ()) := Prod.ext rfl (by decide +kernel)
  obtain ⟨hpersist, restored, hrestored, -, -, hsame⟩ :=
    restored_table hstore _ hfiles 300000000000
  have hspelled : ∀ e ∈ s.table.entries, ∀ v ∈ e.2.value, v.spelledExactly = true := by
    decide +kernel
  have hmetrics : s.table.metrics =
      [.counter "hits" 5, .gauge "load" ⟨0x3fc999999999999a⟩] := by decide +kernel
  exact ⟨hstore, hfiles, hpersist, restored, hrestored, hsame hspelled,
    (hsame hspelled) ▸ hmetrics⟩

/-- The largest double below `2 ^ 53` comes back after a restart as its neighbour. -/
theorem gauge_drifts_at_restart :
    let store : DumpingStore := { plain .empty with snapshot := some "m.json" }
    let calls : List StoreCall := [.update (.gauge "bytes" ⟨0x433fffffffffffff⟩)]
    let saved := (persist.run (store.afterCalls calls)).2
    withSnapshot .empty "m.json" 300000000000 false = .ok store ∧
      (persist.run (store.afterCalls calls)).1 = .ok () ∧
      (store.afterCalls calls).table.metrics = [.gauge "bytes" ⟨0x433fffffffffffff⟩] ∧
      (withSnapshot saved.files "m.json" 300000000000 true).map (·.table.metrics) =
        .ok [.gauge "bytes" ⟨0x433ffffffffffffe⟩] := by
  intro store calls saved
  refine ⟨rfl, ?_, ?_, ?_⟩
  · decide +kernel
  · decide +kernel
  · decide +kernel

end

end DumpingStore

end Telemetry
